import NullGuard.Ty.Definition

/-!
The collection types, which are defined from the start and keep the first numbers.
-/

namespace NullGuard

namespace Collection

abbrev enumerable : DefId := ⟨1⟩
abbrev readOnlyCollection : DefId := ⟨2⟩
abbrev collection : DefId := ⟨3⟩
abbrev readOnlyList : DefId := ⟨4⟩
abbrev listInterface : DefId := ⟨5⟩
abbrev setInterface : DefId := ⟨6⟩
abbrev list : DefId := ⟨7⟩
abbrev hashSet : DefId := ⟨8⟩

/-- The interfaces of `T[]`. -/
def arrayInterfaces : List DefId :=
  [enumerable, readOnlyCollection, collection, readOnlyList, listInterface]

def countField : Field := ⟨"Count", .int⟩

def interfaceOf (name : String) (bases : List DefId) (fields : List Field) : Definition :=
  { Definition.ofKind .interfaceType name ["T"] with
    bases := bases.map fun base => .named base [.param 0]
    fields := fields }

def classOf (name : String) (bases : List DefId) : Definition :=
  { Definition.ofKind .classType name ["T"] with
    bases := bases.map fun base => .named base [.param 0] }

/-- The collection definitions in the order of their numbers. -/
def definitions : Definitions where
  toList :=
    [ interfaceOf "IEnumerable" [] [],
      interfaceOf "IReadOnlyCollection" [enumerable] [countField],
      interfaceOf "ICollection" [enumerable] [countField],
      interfaceOf "IReadOnlyList" [readOnlyCollection] [],
      interfaceOf "IList" [collection] [],
      interfaceOf "ISet" [collection] [],
      classOf "List" [listInterface, readOnlyList],
      classOf "HashSet" [setInterface, readOnlyCollection] ]

end Collection

namespace Ty

def listOf (element : Ty) : Ty := .named Collection.list [element]
def hashSetOf (element : Ty) : Ty := .named Collection.hashSet [element]
def enumerableOf (element : Ty) : Ty := .named Collection.enumerable [element]

end Ty

end NullGuard
