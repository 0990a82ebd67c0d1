import HackToolchain.Vm.Command

/-!
# Programs of the stack machine

A program is a list of source units.  Laid out in one row it is a list of
items: perhaps a start at an entry function, then every command together with
the unit it belongs to.
-/

namespace HackToolchain.Vm

/-- A source unit by its name and its commands. -/
structure SourceUnit where
  name : String
  commands : List Command
  deriving DecidableEq, Repr

/-- One item of a program. -/
inductive Item where
  /-- Set up the stack and call the entry function. -/
  | start (entry : String)
  /-- A command of a source unit. -/
  | command (unit : String) (command : Command)
  deriving DecidableEq, Repr

namespace Item

/-- How an item is shown to a reader. -/
def text : Item → String
  | start _ => "bootstrap"
  | command _ written => written.text

/-- The name an item declares: a label or a function. -/
def declared? : Item → Option String
  | command _ (.label name) | command _ (.function name _) => some name
  | _ => none

end Item

/-- The items of a program, started by an entry function or not. -/
def programItems (entry : Option String) (units : List SourceUnit) : List Item :=
  (entry.map Item.start).toList ++
    units.flatMap fun unit => unit.commands.map (.command unit.name)

end HackToolchain.Vm
