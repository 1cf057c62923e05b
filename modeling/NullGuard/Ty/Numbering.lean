import NullGuard.Ty.Catalogue

/-!
The numbers of types. A type that is not built in gets its number when it first comes in: the
hash of the type selects one of sixteen shards, in which it takes the next position, and the
number holds both. A type is told by its shape, in which its parts are numbers already.
-/

namespace NullGuard

/-! ### Numbers -/

structure TypeNumber where
  value : UInt32
  deriving DecidableEq, Hashable, Inhabited

namespace TypeNumber

/-- The number before which all numbers are kept for built-in types. -/
def firstFree : UInt32 := 100

/-- Zero stands for no type. -/
def isReserved (number : TypeNumber) : Bool :=
  0 < number.value && number.value < firstFree

def ofIntrinsic (kind : Intrinsic) : TypeNumber :=
  ⟨.ofNat kind.number⟩

abbrev shardCount : Nat := 16

/-- The lowest four bits above the reserved numbers are those of the shard. -/
def ofPosition (position : UInt32) (shard : Fin shardCount) : TypeNumber :=
  ⟨firstFree + (position <<< 4 ||| .ofNat shard)⟩

def shard (number : TypeNumber) : Fin shardCount :=
  .ofNat shardCount ((number.value - firstFree) &&& 15).toNat

def position (number : TypeNumber) : UInt32 :=
  (number.value - firstFree) >>> 4

end TypeNumber

deriving instance Hashable for Intrinsic, DefId

/-- A type whose parts are given by their numbers. -/
inductive Shape where
  | intrinsic (kind : Intrinsic)
  | nullable (underlying : TypeNumber)
  | array (element : TypeNumber)
  | named (definition : DefId) (args : List TypeNumber)
  | param (index : Nat)
  deriving DecidableEq, Hashable, Inhabited

namespace Shape

def parts : Shape → List TypeNumber
  | .nullable part | .array part => [part]
  | .named _ args => args
  | .intrinsic _ | .param _ => []

def isIntrinsic : Shape → Bool
  | .intrinsic _ => true
  | _ => false

/-- The shard that the hash of a shape selects. -/
def shard (shape : Shape) : Fin TypeNumber.shardCount :=
  .ofNat TypeNumber.shardCount (hash shape).toNat

end Shape

/-! ### Shards -/

/-- The shapes in the order of their positions, and the position of each shape. -/
structure Shard where
  shapes : Array Shape
  positions : List (Shape × UInt32)
  deriving Inhabited

namespace Shard

def empty : Shard := ⟨#[], []⟩

def position? (shard : Shard) (shape : Shape) : Option UInt32 :=
  shard.positions.lookup shape

/-- The position that the next shape gets. -/
def next (shard : Shard) : UInt32 :=
  .ofNat shard.shapes.size

def add (shard : Shard) (shape : Shape) : Shard :=
  ⟨shard.shapes.push shape, (shape, shard.next) :: shard.positions⟩

end Shard

/-- The numbers given so far. -/
structure Numbering where
  shards : Vector Shard TypeNumber.shardCount
  deriving Inhabited

namespace Numbering

def empty : Numbering := ⟨.replicate _ .empty⟩

def shard (numbering : Numbering) (index : Fin TypeNumber.shardCount) : Shard :=
  numbering.shards[index]

def setShard (numbering : Numbering) (index : Fin TypeNumber.shardCount) (shard : Shard) :
    Numbering :=
  ⟨numbering.shards.set index shard⟩

@[simp]
theorem shard_empty (index : Fin TypeNumber.shardCount) : empty.shard index = .empty := by
  simp [shard, empty]

@[simp]
theorem shard_setShard_self (numbering : Numbering) (index : Fin TypeNumber.shardCount)
    (shard : Shard) : (numbering.setShard index shard).shard index = shard := by
  simp [Numbering.shard, setShard]

theorem shard_setShard_of_ne (numbering : Numbering) {index other : Fin TypeNumber.shardCount}
    (shard : Shard) (h : other ≠ index) :
    (numbering.setShard index shard).shard other = numbering.shard other := by
  simp [Numbering.shard, setShard, Fin.val_inj, h.symm]

/-- The number of a shape, which is a new one if the shape has none yet. `shardOf` selects the
shard of a shape. -/
def assign (shardOf : Shape → Fin TypeNumber.shardCount) (numbering : Numbering) :
    Shape → TypeNumber × Numbering
  | .intrinsic kind => (.ofIntrinsic kind, numbering)
  | shape =>
    let index := shardOf shape
    let shard := numbering.shard index
    match shard.position? shape with
    | some position => (.ofPosition position index, numbering)
    | none => (.ofPosition shard.next index, numbering.setShard index (shard.add shape))

/-- The shape that a number was given to. -/
def shape? (numbering : Numbering) (number : TypeNumber) : Option Shape :=
  if number.isReserved then (Intrinsic.ofNumber? number.value.toNat).map .intrinsic
  else if number.value < TypeNumber.firstFree then none
  else (numbering.shard number.shard).shapes[number.position.toNat]?

/-- How many numbers have been given. -/
def size (numbering : Numbering) : Nat :=
  numbering.shards.toList.foldl (fun count shard => count + shard.shapes.size) 0

end Numbering

/-! ### The numbers of a catalogue -/

namespace Catalogue

/-- The numbers of the types that have come in so far, the latest first. -/
structure Numbered where
  numbers : List (Entry × TypeNumber)
  numbering : Numbering
  deriving Inhabited

namespace Numbered

def empty : Numbered := ⟨[], .empty⟩

def number (table : Numbered) : Ty → TypeNumber
  | .unknown number => ⟨.ofNat number⟩
  | .intrinsic kind => .ofIntrinsic kind
  | ty =>
    let spine := ty.spine
    let found := table.numbers.find? fun (entry, _) => entry.spine = spine && entry.ty = ty
    (found.map Prod.snd).getD ⟨0⟩

def shape? (table : Numbered) : Ty → Option Shape
  | .unknown _ => none
  | .intrinsic kind => some (.intrinsic kind)
  | .nullable underlying => some (.nullable (table.number underlying))
  | .array element => some (.array (table.number element))
  | .named definition args => some (.named definition (args.map table.number))
  | .param index => some (.param index)

def add (shardOf : Shape → Fin TypeNumber.shardCount) (table : Numbered) (entry : Entry) :
    Numbered :=
  match table.shape? entry.ty with
  | some shape =>
    let (number, numbering) := table.numbering.assign shardOf shape
    ⟨(entry, number) :: table.numbers, numbering⟩
  | none => table

end Numbered

/-- Numbers the types in the order in which they have come in. -/
def numbered (shardOf : Shape → Fin TypeNumber.shardCount) (catalogue : Catalogue) : Numbered :=
  catalogue.entries.foldl (Numbered.add shardOf) .empty

def numbering (shardOf : Shape → Fin TypeNumber.shardCount) (catalogue : Catalogue) : Numbering :=
  (catalogue.numbered shardOf).numbering

end Catalogue

end NullGuard
