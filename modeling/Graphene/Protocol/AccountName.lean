import Mathlib.Data.List.Basic
import Mathlib.Data.List.TakeWhile

/-!
# Account names

`is_valid_name`, with its scan over positions, against the grammar of names.  Strings are lists of
characters; a read outside the string, or a scan that does not end, has no result.
-/

namespace Graphene.Protocol

open List

def grapheneMinAccountNameLength : Nat := 1

def grapheneMaxAccountNameLength : Nat := 63

def isLowercase (c : Char) : Bool :=
  'a' ≤ c && c ≤ 'z'

def isLetDig (c : Char) : Bool :=
  isLowercase c || '0' ≤ c && c ≤ '9'

def isLetDigHyp (c : Char) : Bool :=
  isLetDig c || c = '-'

/-- The `for` loop over the positions between the first and the last character of a label. -/
def scanInner (name : List Char) (last i : Nat) : Option Bool :=
  if i < last then do
    let c ← name[i]?
    if isLetDigHyp c then scanInner name last (i + 1) else return false
  else return true
termination_by last - i

/-- What the `while` loop checks of the label from `start` (in the source, `begin`) to `stop`. -/
def checkLabel (name : List Char) (start stop : Nat) : Option Bool := do
  if stop - start < grapheneMinAccountNameLength then return false
  let first ← name[start]?
  if !isLowercase first then return false
  let last ← name[stop - 1]?
  if !isLetDig last then return false
  scanInner name (stop - 1) (start + 1)

/-- The `while` loop.  `find_first_of` looks for a dot; `npos` becomes the length of the name. -/
def scanLabels (name : List Char) : Nat → Nat → Option Bool
  | 0, _ => none
  | fuel + 1, start => do
    let stop := start + (name.drop start).findIdx (· = '.')
    let valid ← checkLabel name start stop
    if !valid then return false
    if stop = name.length then return true
    scanLabels name fuel (stop + 1)

def isValidName (name : List Char) : Option Bool :=
  if name.length < grapheneMinAccountNameLength then some false
  else if grapheneMaxAccountNameLength < name.length then some false
  else scanLabels name (name.length + 1) 0

/-- A label begins with a letter, ends with a letter or digit and has only these and hyphens. -/
def isLabel (l : List Char) : Bool :=
  l.head?.any isLowercase && l.getLast?.any isLetDig && l.all isLetDigHyp

variable {l post s : List Char} {fuel : Nat} {c : Char}

lemma isLetDig_of_isLowercase (h : isLowercase c) : isLetDig c := by
  simp [isLetDig, h]

lemma isLetDigHyp_of_isLetDig (h : isLetDig c) : isLetDigHyp c := by
  simp [isLetDigHyp, h]

lemma dot_notMem_of_isLabel (h : isLabel l) : '.' ∉ l := by
  intro hdot
  simp only [isLabel, Bool.and_eq_true, all_eq_true] at h
  exact absurd (h.2 _ hdot) (by decide)

lemma scanInner_eq (pre mid post : List Char) {last : Nat} (h : last - pre.length = mid.length) :
    scanInner (pre ++ (mid ++ post)) last pre.length = some (mid.all isLetDigHyp) := by
  induction mid generalizing pre with
  | nil =>
    rw [scanInner, if_neg (Nat.not_lt.2 (Nat.le_of_sub_eq_zero h))]
    rfl
  | cons c mid ih =>
    rw [length_cons] at h
    have hnext := ih (pre ++ [c]) (by simp; omega)
    rw [scanInner, if_pos (by omega)]
    cases hc : isLetDigHyp c with
    | false => simp [hc]
    | true => simpa [hc] using hnext

lemma checkLabel_eq (pre l post : List Char) :
    checkLabel (pre ++ (l ++ post)) pre.length (pre.length + l.length) = some (isLabel l) := by
  unfold checkLabel isLabel grapheneMinAccountNameLength
  cases l with
  | nil => simp
  | cons c t =>
    rcases eq_nil_or_concat' t with rfl | ⟨mid, d, rfl⟩
    · -- the loop over the inner positions is not entered
      have hinner := scanInner_eq (pre ++ [c]) [] post (by simp : pre.length - _ = 0)
      simp only [append_assoc, nil_append, singleton_append, length_append, length_singleton]
        at hinner
      cases hc : isLowercase c with
      | false => simp [hc]
      | true => simp [hc, isLetDig_of_isLowercase hc, isLetDigHyp_of_isLetDig, hinner]
    · have hinner := scanInner_eq (pre ++ [c]) mid (d :: post)
        (by simp; omega : pre.length + (mid.length + 1) - _ = _)
      have hread : (pre ++ c :: (mid ++ d :: post))[pre.length + (mid.length + 1)]? = some d := by
        rw [getElem?_append_right (by omega)]
        simp
      have hlast : (c :: (mid ++ [d])).getLast? = some d := by
        rw [← cons_append, getLast?_concat]
      simp only [append_assoc, singleton_append, length_append, length_singleton] at hinner
      cases hc : isLowercase c <;> cases hd : isLetDig d <;>
        simp_all [isLetDigHyp_of_isLetDig, isLetDig_of_isLowercase]

lemma findIdx_label (pre : List Char) (hl : '.' ∉ l) (hpost : ∀ c ∈ post.head?, c = '.') :
    ((pre ++ (l ++ post)).drop pre.length).findIdx (· = '.') = l.length := by
  have hfree : l.findIdx (· = '.') = l.length :=
    findIdx_eq_length.2 fun c hc => decide_eq_false (ne_of_mem_of_not_mem hc hl)
  have hstop : post.findIdx (· = '.') = 0 := by
    cases post with
    | nil => rfl
    | cons c s =>
      rw [hpost c rfl]
      rfl
  simp [findIdx_append, hfree, hstop]

/-- One round of the `while` loop, at the characters up to the next dot. -/
lemma scanLabels_step (pre : List Char) (hl : '.' ∉ l) (hpost : ∀ c ∈ post.head?, c = '.') :
    scanLabels (pre ++ (l ++ post)) (fuel + 1) pre.length =
      if isLabel l then
        if post = [] then some true
        else scanLabels (pre ++ (l ++ post)) fuel (pre.length + l.length + 1)
      else some false := by
  have hend : pre.length + l.length = (pre ++ (l ++ post)).length ↔ post = [] := by
    simp [length_eq_zero_iff]
  simp only [scanLabels, findIdx_label pre hl hpost, checkLabel_eq, hend]
  cases isLabel l <;> rfl

lemma exists_label (s : List Char) :
    ∃ l post, s = l ++ post ∧ '.' ∉ l ∧ ∀ c ∈ post.head?, c = '.' := by
  refine ⟨_, _, (takeWhile_append_dropWhile (p := (· ≠ '.'))).symm, fun h => ?_, fun c hc => ?_⟩
  · simpa using mem_takeWhile_imp h
  · have hnot := head?_dropWhile_not (· ≠ '.') s
    rw [hc] at hnot
    simpa using hnot

lemma scanLabels_eq (pre : List Char) (hfuel : s.length < fuel) :
    scanLabels (pre ++ s) fuel pre.length = some ((s.splitOn '.').all isLabel) := by
  induction fuel generalizing pre s with
  | zero => cases hfuel
  | succ fuel ih =>
    obtain ⟨l, post, rfl, hl, hpost⟩ := exists_label s
    rw [scanLabels_step pre hl hpost]
    cases post with
    | nil =>
      rw [if_pos rfl, append_nil, splitOn_eq_singleton hl]
      cases h : isLabel l <;> simp [h]
    | cons c s =>
      obtain rfl := hpost c rfl
      have hnext := ih (pre ++ (l ++ ['.'])) (s := s) (by simp at hfuel; omega)
      have hsplit : (l ++ '.' :: s).splitOn '.' = l :: s.splitOn '.' :=
        splitOnP_append_cons_of_forall_mem
          (fun c hc => beq_eq_false_iff_ne.2 (ne_of_mem_of_not_mem hc hl)) _ rfl _
      simp only [append_assoc, singleton_append, length_append, length_singleton] at hnext
      rw [hsplit, all_cons, if_neg (cons_ne_nil _ _), Nat.add_assoc, hnext]
      cases isLabel l <;> rfl

/-- Every string is scanned to a result without a read outside of it, and the valid names are the
labels joined by dots. -/
theorem isValidName_iff (name : List Char) : ∃ b, isValidName name = some b ∧
    (b = true ↔ 1 ≤ name.length ∧ name.length ≤ 63 ∧ ∃ labels : List (List Char),
      labels ≠ [] ∧ (∀ l ∈ labels, isLabel l) ∧ name = ['.'].intercalate labels) := by
  have hscan := scanLabels_eq [] (Nat.lt_succ_self name.length)
  unfold isValidName grapheneMinAccountNameLength grapheneMaxAccountNameLength
  split_ifs with hmin hmax
  · exact ⟨false, rfl, by simp; omega⟩
  · exact ⟨false, rfl, by simp; omega⟩
  refine ⟨_, hscan, fun h => ⟨by omega, by omega, name.splitOn '.', by simp, all_eq_true.1 h,
    (intercalate_splitOn '.').symm⟩, ?_⟩
  rintro ⟨-, -, labels, hne, hlabels, rfl⟩
  rw [splitOn_intercalate _ (fun l hl => dot_notMem_of_isLabel (hlabels l hl)) hne]
  exact all_eq_true.2 hlabels

end Graphene.Protocol
