/-!
# Memory

Memory has 32768 cells of one sixteen-bit word each.  An address is a word;
only its lower fifteen bits select a cell.
-/

namespace HackToolchain

/-- A machine word. -/
abbrev Word := Int16

/-- The number of memory cells. -/
def memorySize : Nat := 32768

/-- The contents of all cells. -/
abbrev Memory := Vector Word memorySize

/-- The cell an address selects. -/
def cellOf (address : Word) : Fin memorySize :=
  ⟨address.toUInt16.toNat % memorySize, Nat.mod_lt _ (by decide)⟩

namespace Memory

def cleared : Memory :=
  Vector.replicate memorySize 0

def read (memory : Memory) (address : Word) : Word :=
  memory[cellOf address]

def write (memory : Memory) (address value : Word) : Memory :=
  memory.set (cellOf address) value

/-- The words from a cell on, as far as memory reaches. -/
def words (memory : Memory) (start count : Nat) : List Word :=
  (memory.toArray.extract start (start + count)).toList

/-- Memory after words are stored from a cell on, as far as memory reaches. -/
def store (memory : Memory) (start : Nat) (words : List Word) : Memory :=
  (words.zipIdx start).foldl (fun memory entry => memory.setIfInBounds entry.2 entry.1) memory

/-- The cells that are not zero, in order, with their words. -/
def nonzero (memory : Memory) : List (Nat × Word) :=
  (memory.toArray.toList.zipIdx.filter fun cell => cell.1 ≠ 0).map fun cell => (cell.2, cell.1)

/-- A stored word is read back; other cells keep their words. -/
theorem read_write (memory : Memory) (address value other : Word) :
    (memory.write address value).read other =
      if cellOf address = cellOf other then value else memory.read other := by
  simp only [read, write, Fin.getElem_fin, Vector.getElem_set, Fin.ext_iff]

@[simp] theorem read_write_self (memory : Memory) (address value : Word) :
    (memory.write address value).read address = value := by
  simp [read_write]

theorem read_write_of_ne (memory : Memory) {address other : Word} (value : Word)
    (apart : cellOf address ≠ cellOf other) :
    (memory.write address value).read other = memory.read other := by
  simp [read_write, apart]

end Memory

end HackToolchain
