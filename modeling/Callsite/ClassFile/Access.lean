/-!
# Access flags

The bits of an access word by name. Some bits mean different things for classes, fields and
methods; they go by one name here.
-/

namespace Callsite

/-- The names of the sixteen bits, from the lowest on. -/
def accessNames : List String :=
  ["PUBLIC", "PRIVATE", "PROTECTED", "STATIC", "FINAL", "SUPER", "VOLATILE", "TRANSIENT",
    "NATIVE", "INTERFACE", "ABSTRACT", "STRICT", "SYNTHETIC", "ANNOTATION", "ENUM", "MODULE"]

/-- The names of the bits that are set, low bit first. -/
def accessFlags (access : Int) : List String :=
  (accessNames.zipIdx.filter fun (_, bit) => access >>> bit % 2 = 1).map Prod.fst

end Callsite
