import StackRisc.Text.Blank

/-!
# StackRisc.Event

What the program reports while it works.  An event has a level, a message
and named fields; a computation that reports carries its events beside its
value, oldest first.
-/

namespace StackRisc

inductive Level where
  | info | warn | error
  deriving DecidableEq, Repr, Inhabited

def Level.name : Level → String
  | info => "INFO"
  | warn => "WARN"
  | error => "ERROR"

/-- Something worth reporting. -/
structure Event where
  level : Level
  message : String
  fields : List (String × String) := []
  deriving DecidableEq, Repr, Inhabited

namespace Event

def info (message : String) (fields : List (String × String) := []) : Event :=
  ⟨.info, message, fields⟩

def warn (message : String) (fields : List (String × String) := []) : Event :=
  ⟨.warn, message, fields⟩

def error (message : String) (fields : List (String × String) := []) : Event :=
  ⟨.error, message, fields⟩

/-- A field as it is written: of an error only the first line is kept. -/
def fieldText (field : String × String) : String :=
  field.1 ++ "=" ++ (if field.1 = "error" then Text.firstLine field.2 else field.2)

/-- An event as one entry of a log: level, message if there is one, and the
fields in braces if there are any. -/
def text (e : Event) : String :=
  let message := if e.message.isEmpty then "" else " " ++ e.message
  let fields :=
    if e.fields.isEmpty then ""
    else " \x7b" ++ ", ".intercalate (e.fields.map fieldText) ++ "\x7d"
  e.level.name ++ message ++ fields

end Event

/-- A value with the events reported on the way to it. -/
structure Logged (α : Type) where
  value : α
  log : List Event := []

namespace Logged

/-- A value reached in silence. -/
def quiet {α : Type} (a : α) : Logged α := ⟨a, []⟩

/-- A value reached after reporting one event. -/
def noting {α : Type} (e : Event) (a : α) : Logged α := ⟨a, [e]⟩

/-- Go on from a value, keeping the events of both parts in order. -/
def andThen {α β : Type} (x : Logged α) (f : α → Logged β) : Logged β :=
  let y := f x.value
  ⟨y.value, x.log ++ y.log⟩

instance : Monad Logged where
  pure := quiet
  bind := andThen

@[simp] theorem value_pure {α : Type} (a : α) : (pure a : Logged α).value = a := rfl

@[simp] theorem log_pure {α : Type} (a : α) : (pure a : Logged α).log = [] := rfl

@[simp] theorem value_bind {α β : Type} (x : Logged α) (f : α → Logged β) :
    (x >>= f).value = (f x.value).value := rfl

@[simp] theorem log_bind {α β : Type} (x : Logged α) (f : α → Logged β) :
    (x >>= f).log = x.log ++ (f x.value).log := rfl

end Logged

end StackRisc
