/-!
# Similar texts

How alike two texts are is measured by what they have in common: the longest run of characters that
occurs in both, the first one of several, and then what is in common before it and behind it. A
text resembles another one if at least three fifths of both are in common.
-/

namespace Branchwork.Text

/-- The length of the beginning that two texts have in common. -/
def commonStart : List Char → List Char → Nat
  | a :: s, b :: t => if a = b then commonStart s t + 1 else 0
  | _, _ => 0

/-- A run that occurs in two texts: where it starts in each, and its length. -/
structure CommonRun where
  left : Nat
  right : Nat
  length : Nat
deriving DecidableEq, Repr

/-- The longest run that two texts have in common, the first one of several. -/
def longestCommonRun (s t : List Char) : CommonRun :=
  (List.range s.length).foldl (fun best i =>
    (List.range t.length).foldl (fun best j =>
      let length := commonStart (s.drop i) (t.drop j)
      if best.length < length then ⟨i, j, length⟩ else best) best) ⟨0, 0, 0⟩

/-- The count of characters that two texts have in common. -/
def commonCount : (rounds : Nat) → List Char → List Char → Nat
  | 0, _, _ => 0
  | rounds + 1, s, t =>
    let run := longestCommonRun s t
    if run.length = 0 then 0
    else
      run.length + commonCount rounds (s.take run.left) (t.take run.right) +
        commonCount rounds (s.drop (run.left + run.length)) (t.drop (run.right + run.length))

/-- A candidate with what it has in common with a text, out of all characters of both. -/
structure Candidate where
  text : String
  common : Nat
  total : Nat
deriving DecidableEq, Repr

/-- How much a text has in common with a word. -/
def Candidate.of (word text : String) : Candidate :=
  ⟨text, 2 * commonCount text.length text.toList word.toList, text.length + word.length⟩

/-- Whether the first candidate comes before the second: it has more in common, or as much and
comes later in the alphabet. -/
def Candidate.isBetter (a b : Candidate) : Bool :=
  a.common * b.total > b.common * a.total ||
    (a.common * b.total = b.common * a.total && b.text ≤ a.text)

/-- The texts that resemble a word, at most three, in ascending order. -/
def similar (word : String) (texts : List String) : List String :=
  let found := (texts.map (Candidate.of word)).filter fun c => 3 * c.total ≤ 5 * c.common
  (((found.mergeSort Candidate.isBetter).take 3).map (·.text)).mergeSort fun a b => a ≤ b

end Branchwork.Text
