import Mathlib.Init

/-!
# Strings, exceptions and subscribers

A C++ function that may throw and changes an object is modelled as a function that returns the outcome
together with the new state, so that the state a throwing call leaves behind stays visible.
-/

namespace MacdTradingBot

/-- The contents of a `std::string`. -/
abbrev Bytes := List UInt8

def bytes (text : String) : Bytes := text.toUTF8.data.toList

/-- The exceptions that the modelled code throws or lets through. -/
inductive Exception
  | runtimeError (what : String)
  | badOptionalAccess
  | other (what : String)
deriving DecidableEq, Repr

/-- A bind succeeds when both of its parts do. -/
theorem bind_eq_ok_iff {ε α β : Type} {first : Except ε α} {next : α → Except ε β} {b : β} :
    first >>= next = .ok b ↔ ∃ a, first = .ok a ∧ next a = .ok b := by
  cases first with
  | error e => simp [bind, Except.bind]
  | ok a => simp [bind, Except.bind]

/-- The slots connected to a `signals2` signal, as one function of the argument of the signal and the
state that the slots work on. An exception that a slot throws propagates out of the emission. -/
abbrev Subscriber (α σ : Type) : Type := α → σ → Except Exception Unit × σ

namespace Subscriber

variable {α σ : Type}

/-- No slot throws. -/
def NeverThrows (slot : Subscriber α σ) : Prop :=
  ∀ a w, (slot a w).1 = .ok ()

/-- The same slots, with a record of what was emitted, in order. -/
def logged (slot : Subscriber α σ) : Subscriber α (List α × σ) :=
  fun a w => ((slot a w.2).1, w.1 ++ [a], (slot a w.2).2)

/-- A signal without slots. -/
def ignore : Subscriber α Unit :=
  fun _ w => (.ok (), w)

theorem ignore_neverThrows : (ignore : Subscriber α Unit).NeverThrows := fun _ _ => rfl

/-- Logging what comes in throws nothing of its own. -/
theorem NeverThrows.logged {slot : Subscriber α σ} (h : slot.NeverThrows) :
    (logged slot).NeverThrows :=
  fun a w => h a w.2

end Subscriber

end MacdTradingBot
