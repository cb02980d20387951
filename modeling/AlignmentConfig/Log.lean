-- SUMMARY: Log records with their levels and wording, and computations that log and may fail.
import AlignmentConfig.Fault

/-!
# Logging

`Logged α` is a computation that keeps a log and ends in a value or a fault.
The records written before a fault are kept, so the log of a failed run tells
how far it came.
-/

namespace AlignmentConfig

open Text

/-- How important a record is, from the least. -/
inductive Level where
  | debug
  | info
  | warning
  deriving DecidableEq

/-- The rank of a level among the levels. -/
def Level.rank : Level → Nat
  | .debug => 0
  | .info => 1
  | .warning => 2

/-- The name of each level. -/
def Level.name : Level → String
  | .debug => "DEBUG"
  | .info => "INFO"
  | .warning => "WARNING"

/-- Something that was noticed while a configuration was resolved. -/
inductive Record where
  /-- A header entry that has no key was left out. -/
  | headerDropped (entry : String)
  /-- The constraints were built: how many, whether a global one, and the scopes in order. -/
  | constraintsBuilt (count : Nat) (hasGlobal : Bool) (scopes : List String)
  /-- A name looks like a property of this program but is none. -/
  | unrecognized (name : String)
  /-- Alignment is on, for an endpoint and a number of constraints. -/
  | enabled (url : String) (constraints : Nat)
  /-- Alignment is off. -/
  | disabled
  /-- A property file was read: how many properties, and from where. -/
  | fileLoaded (count : Nat) (path : String)
  deriving DecidableEq

/-- The level of each record. -/
def Record.level : Record → Level
  | .unrecognized _ => .warning
  | .disabled => .info
  | _ => .debug

/-- The wording of a record. -/
def Record.message : Record → String
  | .headerDropped entry => s!"Dropping header entry with empty key: {quote entry}"
  | .constraintsBuilt count hasGlobal scopes =>
    let global := if hasGlobal then "True" else "False"
    s!"Constructed {count} constraint(s): global={global}, scopes={quoteList scopes}"
  | .unrecognized name => s!"Ignoring unrecognized REST property: {name}"
  | .enabled url constraints =>
    s!"REST alignment enabled for {url} with {constraints} constraint(s)"
  | .disabled => "REST alignment disabled: restURL is not set"
  | .fileLoaded count path => s!"Loaded {count} properties from {path}"

/-- A computation that writes records and ends in a value or a fault. -/
structure Logged (α : Type) where
  log : List Record
  result : Except Fault α

namespace Logged

variable {α β : Type}

/-- End in a value and write nothing. -/
def ok (value : α) : Logged α := ⟨[], .ok value⟩

/-- End in a fault and write nothing. -/
def fail (fault : Fault) : Logged α := ⟨[], .error fault⟩

/-- Write records. -/
def note (records : List Record) : Logged Unit := ⟨records, .ok ()⟩

/-- A computation that writes nothing. -/
def ofExcept (result : Except Fault α) : Logged α := ⟨[], result⟩

/-- Go on with the value, after the records written so far; a fault ends the computation. -/
def bind (x : Logged α) (f : α → Logged β) : Logged β :=
  match x.result with
  | .ok value => ⟨x.log ++ (f value).log, (f value).result⟩
  | .error fault => ⟨x.log, .error fault⟩

instance : Monad Logged where
  pure := ok
  bind := bind

instance : MonadLift (Except Fault) Logged where
  monadLift := ofExcept

theorem ext {x y : Logged α} (hlog : x.log = y.log) (hresult : x.result = y.result) : x = y := by
  cases x; cases y; simp_all

theorem pure_eq (value : α) : (pure value : Logged α) = ⟨[], .ok value⟩ := rfl

theorem ok_bind (log : List Record) (value : α) (f : α → Logged β) :
    ((⟨log, .ok value⟩ : Logged α) >>= f) = ⟨log ++ (f value).log, (f value).result⟩ := rfl

theorem note_bind (records : List Record) (f : Unit → Logged β) :
    (note records >>= f) = ⟨records ++ (f ()).log, (f ()).result⟩ := rfl

theorem result_bind (x : Logged α) (f : α → Logged β) :
    (x >>= f).result = x.result.bind fun value => (f value).result := by
  obtain ⟨log, _ | value⟩ := x <;> rfl

theorem lift_ok_bind (value : α) (f : α → Logged β) :
    ((liftM (.ok value : Except Fault α) : Logged α) >>= f) = f value := rfl

theorem lift_error_bind (fault : Fault) (f : α → Logged β) :
    ((liftM (.error fault : Except Fault α) : Logged α) >>= f) = ⟨[], .error fault⟩ := rfl

end Logged

end AlignmentConfig
