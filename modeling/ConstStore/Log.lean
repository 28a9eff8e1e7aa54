/-
# Log lines

Operations report what they do as lines of a log.  A `Logged` value is a value with the lines
that were reported on the way to it; chaining two of them puts their lines behind each other.
-/

namespace ConstStore

/-- How much a log line matters. -/
inductive Severity where
  | debug
  | info
  | warn
  deriving Repr, DecidableEq

/-- A line of the log. -/
structure LogLine where
  severity : Severity
  text : String
  deriving Repr, DecidableEq

/-- A value with the log lines that led to it. -/
structure Logged (α : Type) where
  value : α
  lines : List LogLine
  deriving Repr

namespace Logged

instance : Monad Logged where
  pure value := ⟨value, []⟩
  bind logged f :=
    let next := f logged.value
    ⟨next.value, logged.lines ++ next.lines⟩

/-- Reports one line. -/
def report (severity : Severity) (text : String) : Logged Unit := ⟨(), [⟨severity, text⟩]⟩

variable {α β : Type}

@[simp] theorem value_pure (a : α) : (pure a : Logged α).value = a := rfl

@[simp] theorem value_bind (logged : Logged α) (f : α → Logged β) :
    (logged >>= f).value = (f logged.value).value := rfl

@[simp] theorem lines_pure (a : α) : (pure a : Logged α).lines = [] := rfl

@[simp] theorem lines_bind (logged : Logged α) (f : α → Logged β) :
    (logged >>= f).lines = logged.lines ++ (f logged.value).lines := rfl

/-- The value and the lines are all there is. -/
theorem ext {logged logged' : Logged α} (hvalue : logged.value = logged'.value)
    (hlines : logged.lines = logged'.lines) : logged = logged' := by
  cases logged
  cases logged'
  cases hvalue
  cases hlines
  rfl

end Logged
end ConstStore
