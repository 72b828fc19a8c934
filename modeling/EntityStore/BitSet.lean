/-!
# Growing bit sets

A set of natural numbers kept as 64-bit words.  Number `i` is bit `i % 64` of word `i / 64`;
words beyond the last stored one count as empty, and the table grows when a number is added.

* `BitSet.insert`, `BitSet.erase`, `BitSet.clear` — the operations;
* `BitSet.contains`, `BitSet.size` — membership and number of members;
* `contains_insert`, `contains_erase`, `contains_clear` — membership after each operation;
* `insert_insert` — adding a number twice.

Everything rests on `wordAt`, the reading of a word that does not ask how long the table is:
`wordAt_grow` and `wordAt_modify` say what the two steps of an operation do to it.
-/

namespace EntityStore

/-- A set of naturals, one bit each. -/
structure BitSet where
  /-- Sixty-four members a word, the least first. -/
  words : Array (BitVec 64) := #[]
deriving DecidableEq, Inhabited

namespace BitSet

def mask (bit : Nat) : BitVec 64 := 1#64 <<< bit

theorem getLsbD_mask {j : Nat} (h : j < 64) (bit : Nat) :
    (mask bit).getLsbD j = decide (bit = j) := by
  simp only [mask, BitVec.getLsbD_shiftLeft, BitVec.getLsbD_one, h]
  by_cases hlt : j < bit
  · have hne : bit ≠ j := by omega
    simp [hlt, hne]
  · have hiff : j - bit = 0 ↔ bit = j := by omega
    simp [hlt, hiff]

/-- The word at a position; words beyond the table are empty. -/
def wordAt (words : Array (BitVec 64)) (i : Nat) : BitVec 64 :=
  words[i]?.getD 0#64

/-- The table, filled up with empty words to hold at least `n` of them. -/
def grow (words : Array (BitVec 64)) (n : Nat) : Array (BitVec 64) :=
  words ++ Array.replicate (n - words.size) 0#64

theorem size_grow (words : Array (BitVec 64)) (n : Nat) :
    (grow words n).size = max words.size n := by
  simp only [grow, Array.size_append, Array.size_replicate]
  omega

theorem grow_of_le {words : Array (BitVec 64)} {n : Nat} (h : n ≤ words.size) :
    grow words n = words := by
  rw [grow, Nat.sub_eq_zero_of_le h, Array.replicate_zero, Array.append_empty]

theorem wordAt_grow (words : Array (BitVec 64)) (n i : Nat) :
    wordAt (grow words n) i = wordAt words i := by
  simp only [wordAt, grow, Array.getElem?_append, Array.getElem?_replicate]
  by_cases h : i < words.size
  · simp only [h, if_true]
  · simp only [h, if_false, Array.getElem?_eq_none (Nat.le_of_not_lt h)]
    split <;> rfl

theorem wordAt_modify (words : Array (BitVec 64)) (i j : Nat) (f : BitVec 64 → BitVec 64)
    (hf : words.size ≤ i → f 0#64 = 0#64) :
    wordAt (words.modify i f) j = if i = j then f (wordAt words j) else wordAt words j := by
  simp only [wordAt, Array.getElem?_modify]
  by_cases hij : i = j
  · subst hij
    by_cases h : i < words.size
    · simp only [if_true, Array.getElem?_eq_getElem h, Option.map_some, Option.getD_some]
    · have hle := Nat.le_of_not_lt h
      simp only [if_true, Array.getElem?_eq_none hle, Option.map_none, Option.getD_none, hf hle]
  · simp only [hij, if_false]

def insert (s : BitSet) (index : Nat) : BitSet :=
  ⟨(grow s.words (index / 64 + 1)).modify (index / 64) (· ||| mask (index % 64))⟩

/-- Takes `index` out; beyond the table there is nothing to do. -/
def erase (s : BitSet) (index : Nat) : BitSet :=
  ⟨s.words.modify (index / 64) (· &&& ~~~ mask (index % 64))⟩

def contains (s : BitSet) (index : Nat) : Bool :=
  (wordAt s.words (index / 64)).getLsbD (index % 64)

/-- Empties every word and keeps the table's length. -/
def clear (s : BitSet) : BitSet :=
  ⟨s.words.map fun _ => 0#64⟩

/-- A number is given by its word and its bit in the word. -/
theorem split_eq_iff (i j : Nat) : (i / 64 = j / 64 ∧ i % 64 = j % 64) ↔ i = j := by
  omega

theorem contains_insert (s : BitSet) (i j : Nat) :
    (s.insert i).contains j = (s.contains j || decide (i = j)) := by
  have hj : j % 64 < 64 := Nat.mod_lt j (by decide)
  have hsize : i / 64 < (grow s.words (i / 64 + 1)).size := by
    rw [size_grow]
    omega
  simp only [contains, insert]
  rw [wordAt_modify _ _ _ _ fun h => absurd hsize (Nat.not_lt_of_le h), wordAt_grow]
  have hiff := split_eq_iff i j
  split
  · next hword =>
    simp only [BitVec.getLsbD_or, getLsbD_mask hj]
    simp [← hiff, hword]
  · next hword =>
    have hne : i ≠ j := fun h => hword (by rw [h])
    simp [hne]

theorem contains_erase (s : BitSet) (i j : Nat) :
    (s.erase i).contains j = (s.contains j && !decide (i = j)) := by
  have hj : j % 64 < 64 := Nat.mod_lt j (by decide)
  simp only [contains, erase]
  rw [wordAt_modify _ _ _ (· &&& ~~~ mask (i % 64)) fun _ => BitVec.zero_and]
  have hiff := split_eq_iff i j
  split
  · next hword =>
    simp only [BitVec.getLsbD_and, BitVec.getLsbD_not, getLsbD_mask hj]
    simp [← hiff, hword, hj]
  · next hword =>
    have hne : i ≠ j := fun h => hword (by rw [h])
    simp [hne]

theorem contains_clear (s : BitSet) (i : Nat) : s.clear.contains i = false := by
  simp only [contains, wordAt, clear, Array.getElem?_map]
  cases s.words[i / 64]? <;> simp

/-- Number of bits set in one word.  An empty word, the common case, is not looked through. -/
def popCount (word : BitVec 64) : Nat :=
  if word = 0#64 then 0 else (List.range 64).countP word.getLsbD

theorem popCount_eq (word : BitVec 64) : popCount word = (List.range 64).countP word.getLsbD := by
  unfold popCount
  split
  · next h =>
    subst h
    refine (List.countP_eq_zero.2 fun i _ => ?_).symm
    rw [BitVec.getLsbD_zero]
    exact Bool.false_ne_true
  · rfl

def size (s : BitSet) : Nat :=
  s.words.foldl (fun total word => total + popCount word) 0

theorem words_size_insert (s : BitSet) (index : Nat) :
    (s.insert index).words.size = max s.words.size (index / 64 + 1) := by
  simp only [insert, Array.size_modify, size_grow]

theorem insert_insert (s : BitSet) (i : Nat) : (s.insert i).insert i = s.insert i := by
  have hsize : i / 64 + 1 ≤ (s.insert i).words.size := by
    rw [words_size_insert]
    exact Nat.le_max_right _ _
  rw [insert, grow_of_le hsize, insert]
  congr 1
  apply Array.ext_getElem?
  intro j
  rw [Array.getElem?_modify, Array.getElem?_modify]
  split
  · rw [Option.map_map]
    congr 1
    funext word
    show (word ||| mask (i % 64)) ||| mask (i % 64) = word ||| mask (i % 64)
    rw [BitVec.or_assoc, BitVec.or_self]
  · rfl

end BitSet

end EntityStore
