import Callsite.Text.Basic

/-!
# Member references

A method or field as an instruction names it. Owners are internal names such as `com/acme/Util`,
or array descriptors.
-/

namespace Callsite

/-- The dotted form of an internal name. -/
def Text.dotted (t : Text) : Text := t.replaceAll '/' '.'

/-- The descriptor of the type with an internal name; the name of an array is one already. -/
def typeSignature (internalName : Text) : Text :=
  if internalName.startsWith "[" then internalName else "L" ++ internalName ++ ";"

structure MemberReference where
  owner : Text
  name : Text
  descriptor : Text
  deriving DecidableEq, Repr

namespace MemberReference

def ownerSignature (r : MemberReference) : Text := typeSignature r.owner

def render (r : MemberReference) : Text := r.owner.dotted ++ "." ++ r.name ++ r.descriptor

end MemberReference

end Callsite
