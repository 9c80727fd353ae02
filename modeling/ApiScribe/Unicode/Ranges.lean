set_option autoImplicit false

/-! # Sets of code points as ranges, and case mappings as runs

A property of characters is a list of closed ranges of code points. A case mapping is a list of
runs, each shifting a stretch of evenly spaced code points by one amount, beside the few characters
that map to several. -/

namespace ApiScribe.Unicode

/-- A set of code points, given by the first and last members of its stretches. -/
abbrev Ranges := List (Nat × Nat)

/-- Whether a character lies in one of the ranges. -/
def Ranges.contains (ranges : Ranges) (c : Char) : Bool :=
  ranges.any fun range => range.1 ≤ c.toNat && c.toNat ≤ range.2

/-- Code points from `first` to `last`, `stride` apart, that map to the code point `shift` away. -/
structure CaseRun where
  first : Nat
  last : Nat
  stride : Nat
  shift : Int

/-- Whether a code point belongs to the run. -/
def CaseRun.covers (run : CaseRun) (code : Nat) : Bool :=
  run.first ≤ code && code ≤ run.last && (code - run.first) % run.stride == 0

/-- A case mapping: the runs, and the code points whose image is a sequence. -/
structure CaseMap where
  runs : List CaseRun
  sequences : List (Nat × List Nat)

/-- The image of a character; a character that the mapping does not list stands for itself. -/
def CaseMap.apply (mapping : CaseMap) (c : Char) : List Char :=
  match mapping.sequences.find? (fun entry => entry.1 == c.toNat) with
  | some entry => entry.2.map Char.ofNat
  | none =>
    match mapping.runs.find? (fun run => run.covers c.toNat) with
    | some run => [Char.ofNat (c.toNat + run.shift).toNat]
    | none => [c]

end ApiScribe.Unicode
