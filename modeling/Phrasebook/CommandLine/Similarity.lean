/-!
# Similar words

How alike two words are, from the characters they share at nearby places and the
order of these.  It finds what a mistyped argument may have meant.
-/

namespace Phrasebook.CommandLine

/-- A fraction. -/
structure Score where
  num : Nat
  den : Nat
  deriving DecidableEq, Repr

/-- Order of fractions. -/
def Score.lt (a b : Score) : Bool :=
  a.num * b.den < b.num * a.den

/-- The place of the first character in a list that equals `c`, is not taken and
lies between two places; `place` counts the ones before the list. -/
def firstFree (c : Char) (low high : Nat) : Nat → List (Char × Bool) → Option Nat
  | _, [] => none
  | place, (d, taken) :: rest =>
      if low ≤ place ∧ place < high ∧ c = d ∧ !taken then some place
      else firstFree c low high (place + 1) rest

/-- The characters of the first word that find a partner, and the second word
with the partners marked. -/
def partners (range : Nat) : Nat → List Char → List (Char × Bool) →
    List Char × List (Char × Bool)
  | _, [], marked => ([], marked)
  | place, c :: rest, marked =>
      match firstFree c (place - range) (place + range + 1) 0 marked with
      | none => partners range (place + 1) rest marked
      | some found =>
          let marked := marked.set found (c, true)
          let (shared, marked) := partners range (place + 1) rest marked
          (c :: shared, marked)

/-- The similarity of two words: the mean of the shares of common characters in
either word and of those of them that are in the same order. -/
def similarity (a b : List Char) : Score :=
  if a = [] ∧ b = [] then ⟨1, 1⟩
  else
    let range := max a.length b.length / 2 - 1
    let (shared, marked) := partners range 0 a (b.map fun c => (c, false))
    let others := (marked.filter Prod.snd).map Prod.fst
    let common := shared.length
    let swapped := ((shared.zip others).filter fun (c, d) => c ≠ d).length / 2
    if common = 0 then ⟨0, 1⟩
    else
      ⟨common * common * b.length + common * common * a.length +
          (common - swapped) * a.length * b.length,
        3 * a.length * b.length * common⟩

/-- A candidate put before the first better one. -/
def rank (score : Score) (word : String) :
    List (Score × String) → List (Score × String)
  | [] => [(score, word)]
  | first :: rest =>
      if score.lt first.1 then (score, word) :: first :: rest
      else first :: rank score word rest

/-- The words that are alike by more than seven tenths, the best one last. -/
def similarWords (word : String) (words : List String) : List String :=
  let ranked := words.foldl
    (fun ranked candidate =>
      let score := similarity word.toList candidate.toList
      if Score.lt ⟨7, 10⟩ score then rank score candidate ranked else ranked)
    []
  ranked.map Prod.snd

end Phrasebook.CommandLine
