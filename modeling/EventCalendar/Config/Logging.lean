import EventCalendar.Config.Engine

/-!
# Logging

What is logged, and how. The level comes from the environment, by name; names of no level stand for
`INFO`. Setting the logging up again changes the level, but adds no second handler.
-/

set_option autoImplicit false

namespace EventCalendar.Config

/-- Writes log records of a level and above. -/
structure LogHandler where
  level : Nat
  format : String
  dateFormat : String
  deriving DecidableEq, Repr

structure Logging where
  level : Nat
  handlers : List LogHandler
  /-- The level of what the engine logs. -/
  engineLevel : Nat
  deriving DecidableEq, Repr

/-- The level stands for a text that is no level. -/
structure LevelFault where
  text : String
  deriving DecidableEq, Repr

def LevelFault.message (f : LevelFault) : String := "Unknown level: " ++ Text.quote f.text

namespace Logging

def levels : List (String × Nat) := [("CRITICAL", 50), ("FATAL", 50), ("ERROR", 40),
  ("WARNING", 30), ("WARN", 30), ("INFO", 20), ("DEBUG", 10), ("NOTSET", 0)]

/-- The level that stands for names of no level. -/
def defaultLevel : Nat := 20

def warningLevel : Nat := 30

/-- A name that stands for a text, and that text. -/
def basicFormat : String × String := ("BASIC_FORMAT", "%(levelname)s:%(name)s:%(message)s")

/-- The level of a name, regardless of case. -/
def levelOf (name : String) : Except LevelFault Nat :=
  let name := String.ofList (name.toList.map Text.capital)
  if name = basicFormat.1 then .error ⟨basicFormat.2⟩
  else .ok ((levels.lookup name).getD defaultLevel)

def initial : Logging := ⟨warningLevel, [], 0⟩

def handler (level : Nat) : LogHandler :=
  ⟨level, "%(asctime)s - %(name)s - %(levelname)s - %(message)s", "%Y-%m-%d %H:%M:%S"⟩

/-- Sets up logging as the environment asks for. -/
def setUp (env : Environment) (l : Logging) : Except LevelFault Logging := do
  let level ← levelOf ((env.lookup "LOG_LEVEL").getD "INFO")
  pure ⟨level, if l.handlers.isEmpty then [handler level] else l.handlers, warningLevel⟩

/-- Sets up logging a number of times. -/
def setUpTimes (env : Environment) : Nat → Logging → Except LevelFault Logging
  | 0, l => .ok l
  | n + 1, l => (l.setUp env).bind (setUpTimes env n)

end Logging

end EventCalendar.Config
