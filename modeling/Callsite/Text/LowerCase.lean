import Callsite.Text.CaseTable

/-!
# Lower case

Full lower-casing. Every code point has a mapping of its own, but for the capital sigma, which
becomes a final sigma at the end of a word.
-/

namespace Callsite

def capitalSigma : CodePoint := CodePoint.ofNat 0x3A3
def smallSigma : CodePoint := CodePoint.ofNat 0x3C3
def finalSigma : CodePoint := CodePoint.ofNat 0x3C2

/-- The mapping that does not look at the surroundings. The capital I with a dot is the only code
point that becomes two. -/
def CodePoint.lower (c : CodePoint) : Text :=
  if c.val = 0x130 then [CodePoint.ofNat 0x69, CodePoint.ofNat 0x307]
  else match CodePoint.lowerRuns.find? (·.covers c.val) with
    | some run => [CodePoint.ofNat (c.val + run.shift).toNat]
    | none => [c]

namespace Text

/-- Whether the nearest code point that counts is a letter with case. -/
def reachesCased (t : Text) : Bool :=
  match t.dropWhile CodePoint.isCaseIgnorable with
  | [] => false
  | c :: _ => c.isCased

/-- The form of a capital sigma between what stands `before` it, nearest first, and `after` it. -/
def lowerSigma (before after : Text) : CodePoint :=
  if reachesCased before && !reachesCased after then finalSigma else smallSigma

def lowerAfter (before : Text) : Text → Text
  | [] => []
  | c :: after =>
    (if c = capitalSigma then [lowerSigma before after] else c.lower) ++
      lowerAfter (c :: before) after

def lower (t : Text) : Text := lowerAfter [] t

end Text

end Callsite
