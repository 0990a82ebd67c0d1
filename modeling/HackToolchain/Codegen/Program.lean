import HackToolchain.Codegen.Block
import HackToolchain.Vm.Source

/-!
# Texts of whole programs

The text of a program is the text of the blocks of its items, in order, with
one run of label numbers through all of them.
-/

namespace HackToolchain.Codegen

open HackToolchain.Vm

def itemsText (annotate : Bool) (items : List Item) : String :=
  Asm.render ((blocks 0 items).flatMap (Block.lines annotate))

def programText (annotate : Bool) (entry : Option String) (units : List SourceUnit) : String :=
  itemsText annotate (programItems entry units)

/-- Read the commands of named sources; the first fault in order wins. -/
def readUnits : List (String × String) → Except LocatedFault (List SourceUnit)
  | [] => .ok []
  | (name, source) :: rest =>
      match commands source with
      | .error located => .error located
      | .ok commands =>
          match readUnits rest with
          | .error located => .error located
          | .ok units => .ok (⟨name, commands⟩ :: units)

/-- The text of a program given by named sources. -/
def sourceText (annotate : Bool) (entry : Option String) (sources : List (String × String)) :
    Except LocatedFault String :=
  (readUnits sources).map (programText annotate entry)

end HackToolchain.Codegen
