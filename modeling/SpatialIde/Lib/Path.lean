import Mathlib.Data.List.Basic

/-! # Paths

A path is its components, which is how paths are compared.
-/

namespace Lib

namespace Path

inductive Component where
  /-- A drive or a share. -/
  | volume (name : String)
  | rootDir
  | curDir
  | parentDir
  | normal (name : String)
  deriving DecidableEq, Repr

end Path

structure Path where
  components : List Path.Component
  deriving DecidableEq, Repr

namespace Path

/-- The path `.`. -/
def here : Path := ⟨[.curDir]⟩

def isEmpty (p : Path) : Bool := p.components.isEmpty

/-- The last component, where it names something. -/
def fileName (p : Path) : Option String :=
  match p.components.getLast? with
  | some (.normal name) => some name
  | _ => none

/-- The path without its last component; a root has none. -/
def parent (p : Path) : Option Path :=
  match p.components.getLast? with
  | some (.normal _) | some .curDir | some .parentDir => some ⟨p.components.dropLast⟩
  | _ => none

/-- The path with one more component. -/
def join (p : Path) (name : String) : Path := ⟨p.components ++ [.normal name]⟩

end Path

end Lib
