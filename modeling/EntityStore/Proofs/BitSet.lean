import EntityStore.BitSet
import Mathlib.Data.Finset.Card

/-!
# Bit sets are finite sets

A bit set goes through the same insertions, removals and clearings as a finite set of numbers, and
answers as that set does, for every number and whatever the length of its table.

* `BitSet.size_eq` — the size is the number of members;
* `BitSet.insertInBounds?`, `eraseInBounds?`, `containsInBounds?` — the operations with an access
  to a word of the table that can go wrong, and that it never does;
* `BitSet.Represents`, `Represents.apply` — answering as a finite set, and one operation;
* `BitSet.represents_finite_set` — **any sequence of operations.**
-/

namespace EntityStore

namespace BitSet

/-! ### Counting members -/

def isIn (words : List (BitVec 64)) (i : Nat) : Bool :=
  (words[i / 64]?.getD 0#64).getLsbD (i % 64)

theorem contains_eq_isIn (s : BitSet) (i : Nat) : s.contains i = isIn s.words.toList i := by
  rw [contains, wordAt, isIn, Array.getElem?_toList]

/-- Counting word by word is counting number by number. -/
theorem foldl_popCount (words : List (BitVec 64)) :
    words.foldl (fun total word => total + popCount word) 0 =
      (List.range (64 * words.length)).countP (isIn words) := by
  induction words using List.reverseRecOn with
  | nil => rfl
  | append_singleton words word ih =>
      have hearlier : ∀ i ∈ List.range (64 * words.length),
          isIn words i = true ↔ isIn (words ++ [word]) i = true := by
        intro i hi
        have hlt : i / 64 < words.length := by
          have := List.mem_range.1 hi
          omega
        rw [isIn, isIn, List.getElem?_append_left hlt]
      have hlast : ∀ i ∈ List.range 64,
          word.getLsbD i = true ↔ isIn (words ++ [word]) (64 * words.length + i) = true := by
        intro i hi
        have hlt := List.mem_range.1 hi
        have hdiv : (64 * words.length + i) / 64 = words.length := by omega
        have hmod : (64 * words.length + i) % 64 = i := by omega
        rw [isIn, hdiv, hmod, List.getElem?_concat_length, Option.getD_some]
      rw [List.foldl_append, List.foldl_cons, List.foldl_nil, ih, popCount_eq, List.length_append,
        List.length_singleton, Nat.mul_add, Nat.mul_one, List.range_add, List.countP_append,
        List.countP_map, List.countP_congr hearlier, List.countP_congr hlast]
      rfl

/-- The members, in increasing order. -/
def members (s : BitSet) : List Nat :=
  (List.range (64 * s.words.size)).filter s.contains

theorem mem_members (s : BitSet) (i : Nat) : i ∈ s.members ↔ s.contains i = true := by
  rw [members, List.mem_filter, List.mem_range, and_iff_right_iff_imp]
  intro hi
  by_contra hge
  have hbeyond : s.words.size ≤ i / 64 := by omega
  rw [contains, wordAt, Array.getElem?_eq_none hbeyond, Option.getD_none, BitVec.getLsbD_zero] at hi
  cases hi

theorem nodup_members (s : BitSet) : s.members.Nodup :=
  List.nodup_range.filter _

/-- **The size is the number of members.** -/
theorem size_eq (s : BitSet) : s.size = s.members.length := by
  have hsize : s.words.toList.length = s.words.size := Array.length_toList
  have hsame : s.contains = isIn s.words.toList := funext s.contains_eq_isIn
  rw [size, ← Array.foldl_toList, foldl_popCount, hsize, List.countP_eq_length_filter, members,
    hsame]

/-! ### Accesses to the table -/

/-- The table with one of its words changed; out of bounds there is no word to change. -/
def modifyInBounds? (words : Array (BitVec 64)) (i : Nat) (f : BitVec 64 → BitVec 64) :
    Option (Array (BitVec 64)) :=
  if h : i < words.size then some (words.set i (f words[i])) else none

/-- Adds `index` to the table that was grown, if the access to it is in bounds. -/
def insertInBounds? (s : BitSet) (index : Nat) : Option BitSet :=
  (modifyInBounds? (grow s.words (index / 64 + 1)) (index / 64) (· ||| mask (index % 64))).map mk

/-- Takes `index` out if the table has its word, if the access to that word is in bounds. -/
def eraseInBounds? (s : BitSet) (index : Nat) : Option BitSet :=
  if index / 64 < s.words.size then
    (modifyInBounds? s.words (index / 64) (· &&& ~~~ mask (index % 64))).map mk
  else some s

/-- Tests the bit of `index` if the table has its word, if the access to that word is in bounds. -/
def containsInBounds? (s : BitSet) (index : Nat) : Option Bool :=
  if index / 64 < s.words.size then
    s.words[index / 64]?.map fun word => word &&& mask (index % 64) != 0#64
  else some false

theorem modifyInBounds?_of_lt {words : Array (BitVec 64)} {i : Nat} (h : i < words.size)
    (f : BitVec 64 → BitVec 64) : modifyInBounds? words i f = some (words.modify i f) := by
  rw [modifyInBounds?, dif_pos h]
  congr 1
  apply Array.ext_getElem?
  intro j
  rw [Array.getElem?_set, Array.getElem?_modify]
  split
  · next hij =>
    subst hij
    rw [Array.getElem?_eq_getElem h, Option.map_some]
  · rfl

theorem modify_of_size_le {words : Array (BitVec 64)} {i : Nat} (h : words.size ≤ i)
    (f : BitVec 64 → BitVec 64) : words.modify i f = words := by
  apply Array.ext_getElem?
  intro j
  rw [Array.getElem?_modify]
  split
  · next hij =>
    subst hij
    rw [Array.getElem?_eq_none h, Option.map_none]
  · rfl

/-- The table is grown before the access. -/
theorem insertInBounds?_eq (s : BitSet) (index : Nat) :
    s.insertInBounds? index = some (s.insert index) := by
  have hlt : index / 64 < (grow s.words (index / 64 + 1)).size := by
    rw [size_grow]
    omega
  rw [insertInBounds?, modifyInBounds?_of_lt hlt, Option.map_some, insert]

theorem eraseInBounds?_eq (s : BitSet) (index : Nat) :
    s.eraseInBounds? index = some (s.erase index) := by
  rw [eraseInBounds?]
  split
  · next hlt => rw [modifyInBounds?_of_lt hlt, Option.map_some, erase]
  · next hge => rw [erase, modify_of_size_le (Nat.le_of_not_lt hge)]

/-- Testing a word with a mask is looking at its bit. -/
theorem and_mask_bne_zero (word : BitVec 64) {bit : Nat} (h : bit < 64) :
    (word &&& mask bit != 0#64) = word.getLsbD bit := by
  have hbit : (word &&& mask bit).getLsbD bit = word.getLsbD bit := by
    rw [BitVec.getLsbD_and, getLsbD_mask h, decide_eq_true rfl, Bool.and_true]
  cases hword : word.getLsbD bit with
  | true =>
      rw [bne_iff_ne]
      intro hzero
      rw [hzero, BitVec.getLsbD_zero, hword] at hbit
      cases hbit
  | false =>
      rw [bne_eq_false_iff_eq]
      refine BitVec.eq_of_getLsbD_eq fun j hj => ?_
      rw [BitVec.getLsbD_and, getLsbD_mask hj, BitVec.getLsbD_zero, Bool.and_eq_false_imp]
      intro hj'
      refine decide_eq_false ?_
      rintro rfl
      rw [hword] at hj'
      cases hj'

theorem containsInBounds?_eq (s : BitSet) (index : Nat) :
    s.containsInBounds? index = some (s.contains index) := by
  rw [containsInBounds?, contains, wordAt]
  split
  · next hlt =>
    rw [Array.getElem?_eq_getElem hlt, Option.map_some, Option.getD_some,
      and_mask_bne_zero _ (Nat.mod_lt index (by decide))]
  · next hge =>
    rw [Array.getElem?_eq_none (Nat.le_of_not_lt hge), Option.getD_none, BitVec.getLsbD_zero]

/-! ### Operations -/

/-- What can be done to a set of numbers. -/
inductive Edit where
  | insert (index : Nat)
  | erase (index : Nat)
  | clear
deriving DecidableEq, Repr, Inhabited

namespace Edit

def apply (edit : Edit) (s : BitSet) : BitSet :=
  match edit with
  | .insert index => s.insert index
  | .erase index => s.erase index
  | .clear => s.clear

/-- The bit set after an operation, if its accesses to the table are in bounds. -/
def applyInBounds? (edit : Edit) (s : BitSet) : Option BitSet :=
  match edit with
  | .insert index => s.insertInBounds? index
  | .erase index => s.eraseInBounds? index
  | .clear => some s.clear

/-- What an operation means for a finite set. -/
def interpret (edit : Edit) (set : Finset Nat) : Finset Nat :=
  match edit with
  | .insert index => Insert.insert index set
  | .erase index => set.erase index
  | .clear => ∅

theorem applyInBounds?_eq (edit : Edit) (s : BitSet) :
    edit.applyInBounds? s = some (edit.apply s) := by
  cases edit with
  | insert index => exact s.insertInBounds?_eq index
  | erase index => exact s.eraseInBounds?_eq index
  | clear => rfl

end Edit

/-- The bit set has the members of the finite set. -/
def Represents (s : BitSet) (set : Finset Nat) : Prop :=
  ∀ i, s.contains i = true ↔ i ∈ set

theorem represents_empty : Represents {} ∅ := by
  intro i
  simp [contains, wordAt]

theorem Represents.size_eq_card {s : BitSet} {set : Finset Nat} (h : s.Represents set) :
    s.size = set.card := by
  have hmembers : s.members.toFinset = set := by
    ext i
    rw [List.mem_toFinset, mem_members, h]
  rw [size_eq, ← List.toFinset_card_of_nodup s.nodup_members, hmembers]

/-- **One operation of a bit set is that of the finite set.** -/
theorem Represents.apply {s : BitSet} {set : Finset Nat} (h : s.Represents set) (edit : Edit) :
    (edit.apply s).Represents (edit.interpret set) := by
  intro i
  cases edit with
  | insert index =>
      show (s.insert index).contains i = true ↔ i ∈ Insert.insert index set
      rw [contains_insert, Bool.or_eq_true, h, decide_eq_true_eq, Finset.mem_insert, or_comm,
        eq_comm]
  | erase index =>
      show (s.erase index).contains i = true ↔ i ∈ set.erase index
      rw [contains_erase, Bool.and_eq_true, h, Bool.not_eq_true', decide_eq_false_iff_not,
        Finset.mem_erase, and_comm, eq_comm]
  | clear =>
      show s.clear.contains i = true ↔ i ∈ (∅ : Finset Nat)
      rw [contains_clear]
      exact iff_of_false Bool.false_ne_true (Finset.notMem_empty i)

/-- The bit set after operations, one after the other. -/
def run (s : BitSet) (edits : List Edit) : BitSet :=
  edits.foldl (fun s edit => edit.apply s) s

def interpretAll (set : Finset Nat) (edits : List Edit) : Finset Nat :=
  edits.foldl (fun set edit => edit.interpret set) set

theorem Represents.run {s : BitSet} {set : Finset Nat} (h : s.Represents set)
    (edits : List Edit) : (s.run edits).Represents (interpretAll set edits) := by
  induction edits generalizing s set with
  | nil => exact h
  | cons edit rest ih => exact ih (h.apply edit)

/-- No access to the table ever goes wrong. -/
theorem foldlM_applyInBounds? (s : BitSet) (edits : List Edit) :
    edits.foldlM (fun s edit => edit.applyInBounds? s) s = some (s.run edits) := by
  induction edits generalizing s with
  | nil => rfl
  | cons edit rest ih =>
      rw [List.foldlM_cons, edit.applyInBounds?_eq]
      exact ih (edit.apply s)

/-- **A bit set is a finite set of numbers.**  After any insertions, removals and clearings, of any
numbers and in any order, a number is a member exactly if it is in the finite set that went through
the same operations, whether or not the table has its word, and the size is the cardinality of that
set.  Every word that an operation or a test of membership looks up is in the table. -/
theorem represents_finite_set (edits : List Edit) :
    (∀ i, (run {} edits).contains i = true ↔ i ∈ interpretAll ∅ edits) ∧
    (run {} edits).size = (interpretAll ∅ edits).card ∧
    edits.foldlM (fun s edit => edit.applyInBounds? s) {} = some (run {} edits) ∧
    ∀ i, (run {} edits).containsInBounds? i = some ((run {} edits).contains i) := by
  have hset := represents_empty.run edits
  exact ⟨hset, hset.size_eq_card, foldlM_applyInBounds? {} edits,
    (run {} edits).containsInBounds?_eq⟩

/-- Of two members one is taken out, and so is a number beyond the table. -/
example : (run {} [.insert 130, .insert 3, .erase 1000, .erase 130]).size = 1 := by decide

end BitSet

end EntityStore
