set_option autoImplicit false

/-! # Suggestions for misspelled words

Two words are alike to the degree to which they share blocks of characters: the longest block that
both contain, and then, again and again, the longest ones on its left and on its right. The degree
is twice the number of shared characters over the number of all. -/

namespace ApiScribe.CommandLine

/-- The length of the longest common start of two texts. -/
def commonStart : List Char → List Char → Nat
  | a :: as, b :: bs => if a = b then commonStart as bs + 1 else 0
  | _, _ => 0

/-- A block that two texts share: where it starts in either, and its length. -/
structure Block where
  left : Nat
  right : Nat
  length : Nat

/-- The longest block that two texts share: the leftmost one in the first text, and for that the
    leftmost one in the second. -/
def longestBlock (a b : List Char) : Block :=
  let starts := (List.range a.length).flatMap fun i => (List.range b.length).map fun j => (i, j)
  starts.foldl (fun best (i, j) =>
    let length := commonStart (a.drop i) (b.drop j)
    if best.length < length then ⟨i, j, length⟩ else best) ⟨0, 0, 0⟩

/-- The number of characters that two texts share. The fuel bounds the number of nested blocks. -/
def sharedCount : Nat → List Char → List Char → Nat
  | 0, _, _ => 0
  | fuel + 1, a, b =>
    let block := longestBlock a b
    if block.length = 0 then 0
    else
      sharedCount fuel (a.take block.left) (b.take block.right) + block.length
        + sharedCount fuel (a.drop (block.left + block.length)) (b.drop (block.right + block.length))

/-- Whether two words are alike to a degree of three fifths or more. -/
def isClose (a b : String) : Bool :=
  let a := a.toList
  let b := b.toList
  3 * (a.length + b.length) ≤ 5 * (2 * sharedCount a.length a b)

/-- The known words that are close to a word, in their own order. -/
def closeMatches (word : String) (known : List String) : List String :=
  (known.filter fun candidate => isClose candidate word).mergeSort fun a b => a ≤ b

end ApiScribe.CommandLine
