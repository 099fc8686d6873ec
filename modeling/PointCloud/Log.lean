/-!
# Log messages as data

Some steps have something to say besides their result: a setting that could not
be forwarded, a point with an impossible return number.  Nothing is printed;
such a step gives a `Logged` value, which carries its messages in order.
Joining two steps appends the messages of the second, so a log is read off a
computation exactly as its result is.
-/

namespace PointCloud

/-- How much a message matters. -/
inductive Severity where
  | warn
  | debug
  deriving Repr, DecidableEq

/-- The name of a severity in front of a message. -/
def Severity.label : Severity → String
  | .warn => "warn"
  | .debug => "debug"

/-- One message. -/
structure LogEntry where
  severity : Severity
  text : String
  deriving Repr, DecidableEq

namespace LogEntry

/-- A message that someone should look at. -/
def warn (text : String) : LogEntry := ⟨.warn, text⟩

/-- A message for the curious. -/
def debug (text : String) : LogEntry := ⟨.debug, text⟩

/-- The message behind its severity. -/
def line (e : LogEntry) : String := s!"{e.severity.label}: {e.text}"

end LogEntry

/-- A value with the messages that came up on the way to it. -/
structure Logged (α : Type) where
  value : α
  log : List LogEntry

namespace Logged

/-- A value without messages. -/
def quiet {α : Type} (value : α) : Logged α := ⟨value, []⟩

/-- A value with one message. -/
def noting {α : Type} (value : α) (entry : LogEntry) : Logged α := ⟨value, [entry]⟩

/-- Goes on with a value; the messages of both steps are kept in order. -/
def andThen {α β : Type} (x : Logged α) (f : α → Logged β) : Logged β :=
  ⟨(f x.value).value, x.log ++ (f x.value).log⟩

instance : Monad Logged where
  pure := quiet
  bind := andThen

@[simp] theorem value_pure {α : Type} (a : α) : (pure a : Logged α).value = a := rfl

@[simp] theorem log_pure {α : Type} (a : α) : (pure a : Logged α).log = [] := rfl

@[simp] theorem value_bind {α β : Type} (x : Logged α) (f : α → Logged β) :
    (x >>= f).value = (f x.value).value := rfl

@[simp] theorem log_bind {α β : Type} (x : Logged α) (f : α → Logged β) :
    (x >>= f).log = x.log ++ (f x.value).log := rfl

end Logged

end PointCloud
