import ClassHierarchy.FullName

namespace ClassHierarchy

inductive LoadError where
  | notFound (name : FullName)
  | initializationFailed (name : FullName) (reason : String)
  | unavailable (name : FullName) (reason : String)
  deriving DecidableEq

def LoadError.message : LoadError → String
  | .notFound name => s!"class `{name}` not found"
  | .initializationFailed name reason => s!"failed to initialize class `{name}`: {reason}"
  | .unavailable name reason => s!"definition of class `{name}` is unavailable: {reason}"

inductive Severity where
  | error | warn | info | debug | trace
  deriving DecidableEq

namespace Severity

def all : List Severity := [.error, .warn, .info, .debug, .trace]

def rank : Severity → Nat
  | .error => 1
  | .warn => 2
  | .info => 3
  | .debug => 4
  | .trace => 5

def label : Severity → String
  | .error => "ERROR"
  | .warn => "WARN"
  | .info => "INFO"
  | .debug => "DEBUG"
  | .trace => "TRACE"

end Severity

inductive FieldValue where
  | plain (text : String)
  | quoted (text : String)
  | count (n : Nat)
  | flag (b : Bool)
  deriving DecidableEq

inductive Event where
  | classNotFound (name : FullName)
  | initializationFailed (name : FullName) (reason : String)
  | definitionUnavailable (name : FullName) (reason : String)
  | malformedArrayRegistered (name : FullName)
  | malformedArrayQueried (name : FullName)
  | loadDiscarded (name : FullName)
  | missingRebound (name : FullName)
  | programClassLoading (name : FullName)
  | platformClassLoading (name : FullName)
  | platformTableReady (types : Nat)
  | logFileUnavailable (path reason : String)
  | loggingStarted (level : String) (json : Bool)
  deriving DecidableEq

namespace Event

def ofLoadError : LoadError → Event
  | .notFound name => .classNotFound name
  | .initializationFailed name reason => .initializationFailed name reason
  | .unavailable name reason => .definitionUnavailable name reason

def severity : Event → Severity
  | classNotFound _ | loadDiscarded _ | missingRebound _ | platformTableReady _
  | loggingStarted .. => .debug
  | initializationFailed .. | definitionUnavailable .. | logFileUnavailable .. => .warn
  | malformedArrayRegistered _ | malformedArrayQueried _ => .error
  | programClassLoading _ | platformClassLoading _ => .trace

def target : Event → String
  | programClassLoading _ | platformClassLoading _ => "nova.hierarchy.bridge"
  | platformTableReady _ => "nova.jdk"
  | logFileUnavailable .. | loggingStarted .. => "nova.config"
  | _ => "nova.hierarchy"

def message : Event → String
  | classNotFound _ => "cannot find class"
  | initializationFailed .. => "class is not visible: initialization failed"
  | definitionUnavailable .. => "cannot find class definition"
  | malformedArrayRegistered _ | malformedArrayQueried _ => "unknown array element type"
  | loadDiscarded _ => "detail was attached while loading; discarding loader result"
  | missingRebound _ => "rebinding the super class of a missing class"
  | programClassLoading _ => "loading program class"
  | platformClassLoading _ => "loading platform class"
  | platformTableReady _ => "built-in JDK index ready"
  | logFileUnavailable .. => "failed to open log file; file logging disabled"
  | loggingStarted .. => "tracing initialized"

def fields : Event → List (String × FieldValue)
  | malformedArrayRegistered name => [("class", .quoted name)]
  | classNotFound name | malformedArrayQueried name | loadDiscarded name | missingRebound name
  | programClassLoading name | platformClassLoading name => [("class", .plain name)]
  | initializationFailed name reason | definitionUnavailable name reason =>
    [("class", .plain name), ("reason", .plain reason)]
  | platformTableReady types => [("types", .count types)]
  | logFileUnavailable path reason => [("path", .plain path), ("error", .plain reason)]
  | loggingStarted level json => [("level", .plain level), ("json", .flag json)]

end Event

end ClassHierarchy
