set_option autoImplicit false

namespace EarlyBoot.Log

inductive Level where
  | error
  | warning
  | info
  deriving DecidableEq, Repr

def Level.label : Level → String
  | .error => "ERROR"
  | .warning => "WARN"
  | .info => "INFO"

inductive Origin where
  | firmware
  | entry
  | platform
  | discovery
  | planning
  | volumes
  | harts
  | relocation
  deriving DecidableEq, Repr

def Origin.label : Origin → String
  | .firmware => "firmware"
  | .entry => "firmware::entry"
  | .platform => "platform_pei"
  | .discovery => "platform_pei::scanner"
  | .planning => "platform_pei::planner"
  | .volumes => "platform_pei::fv"
  | .harts => "platform_pei::harts"
  | .relocation => "platform_pei::relocator"

structure Record where
  level : Level
  origin : Origin
  text : String
  deriving DecidableEq, Repr

def Record.line (record : Record) : String :=
  let level := String.ofList (record.level.label.toList.rightpad 5 ' ')
  "[" ++ level ++ "] " ++ record.origin.label ++ ": " ++ record.text ++ "\n"

end EarlyBoot.Log
