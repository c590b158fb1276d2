import Mathlib
import Tableflow.Proofs.Table.Rows
import Tableflow.RunId

/-!
# Run identifiers are read back

The text of an identifier tells which one it is: it is read as the identifier that it is the text of
(`ofText?_text`).
-/

namespace Tableflow.RunId

open Text (hexDigit?)

variable (id : RunId)

/-! ## Digits -/

theorem hexDigit?_digitChar {n : Nat} (h : n < 16) : hexDigit? n.digitChar = some n := by
  decide +revert

/-- The values of the digits of a number in base sixteen, of which there are `count`. -/
def digitValues (n count : Nat) : List Nat :=
  (List.range count).map fun i => n / 16 ^ (count - 1 - i) % 16

theorem digitValues_succ (n count : Nat) :
    digitValues n (count + 1) = digitValues (n / 16) count ++ [n % 16] := by
  rw [digitValues, List.range_succ, List.map_append, List.map_singleton]
  congr 1
  · refine List.map_congr_left fun i hi => ?_
    rw [List.mem_range] at hi
    obtain ⟨k, rfl⟩ := Nat.exists_eq_add_of_lt hi
    rw [Nat.div_div_eq_div_mul, ← Nat.pow_succ']
    congr 3
    omega
  · simp

theorem foldl_digitValues (n count : Nat) :
    (digitValues n count).foldl (fun n digit => 16 * n + digit) 0 = n % 16 ^ count := by
  induction count generalizing n with
  | zero => simp [digitValues, Nat.mod_one]
  | succ count ih =>
    rw [digitValues_succ, List.foldl_append, ih, Nat.pow_succ', Nat.mod_mul]
    simp [Nat.add_comm]

theorem digits_eq : id.digits = (digitValues id.number.toNat 32).map Nat.digitChar := by
  rw [digits, digitValues, List.map_map]
  rfl

theorem lt_of_mem_digitValues {n count d : Nat} (h : d ∈ digitValues n count) : d < 16 := by
  obtain ⟨i, -, rfl⟩ := List.mem_map.1 h
  exact Nat.mod_lt _ (by decide)

theorem length_digits : id.digits.length = 32 := by
  rw [digits, List.length_map, List.length_range]

theorem ofDigits?_digits : ofDigits? id.digits = some id := by
  have hvalues : id.digits.mapM hexDigit? = some (digitValues id.number.toNat 32) := by
    rw [mapM_eq_some_iff, digits_eq, List.map_map, List.map_inj_left]
    exact fun d hd => hexDigit?_digitChar (lt_of_mem_digitValues hd)
  have hlength : (digitValues id.number.toNat 32).length = 32 := by
    rw [digitValues, List.length_map, List.length_range]
  have hnumber : id.number.toNat < 16 ^ 32 := id.number.isLt
  rw [ofDigits?, hvalues]
  simp only [Option.bind_eq_bind, Option.bind_some, hlength, guard, if_true, Option.pure_def,
    foldl_digitValues, Nat.mod_eq_of_lt hnumber, BitVec.ofNat_toNat, BitVec.setWidth_eq]

theorem hyphen_notMem_digits : '-' ∉ id.digits := by
  rw [digits_eq]
  intro h
  obtain ⟨d, hd, heq⟩ := List.mem_map.1 h
  have hdigit := hexDigit?_digitChar (lt_of_mem_digitValues hd)
  rw [heq] at hdigit
  cases hdigit

/-! ## Groups -/

/-- Where the hyphens stand in a text. -/
def hyphens (chars : List Char) : List Nat :=
  (List.range chars.length).filter (chars[·]? = some '-')

theorem hyphens_append (front back : List Char) :
    hyphens (front ++ back) = hyphens front ++ (hyphens back).map (front.length + ·) := by
  rw [hyphens, List.length_append, List.range_add, List.filter_append, List.filter_map]
  congr 1
  · refine List.filter_congr fun i hi => ?_
    rw [List.getElem?_append_left (List.mem_range.1 hi)]
  · refine congrArg (List.map _) (List.filter_congr fun i _ => ?_)
    simp [List.getElem?_append_right]

theorem hyphens_cons (rest : List Char) :
    hyphens ('-' :: rest) = 0 :: (hyphens rest).map (1 + ·) := by
  have hfirst : hyphens ['-'] = [0] := by decide
  have happend := hyphens_append ['-'] rest
  rwa [hfirst] at happend

theorem hyphens_of_notMem {chars : List Char} (h : '-' ∉ chars) : hyphens chars = [] := by
  rw [hyphens, List.filter_eq_nil_iff]
  intro i _ hi
  exact h (List.mem_of_getElem? (of_decide_eq_true hi))

/-- Some of the digits. -/
def group (first count : Nat) : List Char := (id.digits.drop first).take count

theorem hyphen_notMem_group (first count : Nat) : '-' ∉ id.group first count := fun h =>
  id.hyphen_notMem_digits (List.mem_of_mem_drop (List.mem_of_mem_take h))

theorem length_group {first count : Nat} (h : first + count ≤ 32) :
    (id.group first count).length = count := by
  rw [group, List.length_take, List.length_drop, length_digits]
  omega

theorem drop_digits (first count : Nat) :
    id.digits.drop first = id.group first count ++ id.digits.drop (first + count) := by
  rw [group, ← List.drop_drop, List.take_append_drop]

theorem digits_eq_groups : id.digits = id.group 0 8 ++ (id.group 8 4 ++ (id.group 12 4 ++
    (id.group 16 4 ++ id.group 20 12))) := by
  have hend : id.digits.drop 32 = [] := List.drop_eq_nil_of_le id.length_digits.le
  calc id.digits = id.digits.drop 0 := rfl
    _ = _ := by
      rw [id.drop_digits 0 8, id.drop_digits 8 4, id.drop_digits 12 4, id.drop_digits 16 4,
        id.drop_digits 20 12, hend, List.append_nil]

theorem toList_text : id.text.toList = id.group 0 8 ++ '-' :: (id.group 8 4 ++ '-' ::
    (id.group 12 4 ++ '-' :: (id.group 16 4 ++ '-' :: id.group 20 12))) := by
  rw [text, String.toList_ofList]
  simp [group]

theorem hyphens_text : hyphens id.text.toList = [8, 13, 18, 23] := by
  rw [toList_text]
  simp [hyphens_append, hyphens_cons, hyphens_of_notMem, hyphen_notMem_group, length_group]

theorem filter_text : id.text.toList.filter (· ≠ '-') = id.digits := by
  have hgroup (first count : Nat) :
      (id.group first count).filter (· ≠ '-') = id.group first count := by
    refine List.filter_eq_self.2 fun c hc => decide_eq_true ?_
    rintro rfl
    exact id.hyphen_notMem_group first count hc
  have hhyphen (rest : List Char) :
      ('-' :: rest).filter (· ≠ '-') = rest.filter (· ≠ '-') :=
    List.filter_cons_of_neg (by decide)
  simp only [toList_text, List.filter_append, hhyphen, hgroup, ← digits_eq_groups]

theorem ofGroups?_text : ofGroups? id.text.toList = some id := by
  have hhyphens : (List.range id.text.toList.length).filter (id.text.toList[·]? = some '-') =
      [8, 13, 18, 23] := id.hyphens_text
  rw [ofGroups?, hhyphens, filter_text, ofDigits?_digits]
  rfl

/-! ## Texts -/

theorem digit_ne {c : Char} (h : c ∈ id.digits) : c ≠ '\x7b' ∧ c.toLower ≠ 'u' := by
  rw [digits_eq] at h
  obtain ⟨d, hd, rfl⟩ := List.mem_map.1 h
  have hlt := lt_of_mem_digitValues hd
  clear hd h
  decide +revert

theorem exists_cons_text : ∃ c rest, id.text.toList = c :: rest ∧ c ∈ id.digits := by
  have hgroup : id.group 0 8 ≠ [] := by
    rw [← List.length_pos_iff, length_group id (by decide)]
    decide
  obtain ⟨c, rest, hcons⟩ := List.exists_cons_of_ne_nil hgroup
  refine ⟨c, _, by rw [toList_text, hcons, List.cons_append], ?_⟩
  rw [digits_eq_groups, hcons]
  exact List.mem_cons_self

theorem ofDigits?_text : ofDigits? id.text.toList = none := by
  have hmem : '-' ∈ id.text.toList := by simp [toList_text]
  cases hvalues : id.text.toList.mapM hexDigit? with
  | none => rw [ofDigits?, hvalues]; rfl
  | some values =>
    rw [mapM_eq_some_iff] at hvalues
    have hhyphen : hexDigit? '-' ∈ values.map some := hvalues ▸ List.mem_map_of_mem hmem
    obtain ⟨value, -, hvalue⟩ := List.mem_map.1 hhyphen
    cases hvalue

theorem ofText?_text : ofText? id.text = some id := by
  obtain ⟨c, rest, htext, hc⟩ := id.exists_cons_text
  obtain ⟨hbrace, hmark⟩ := id.digit_ne hc
  have hnamespace : (id.text.toList.take namespaceMark.length).map Char.toLower ≠ namespaceMark := by
    rw [htext]
    exact fun h => hmark (List.cons.inj h).1
  rw [ofText?]
  split
  · next h => exact absurd (List.cons.inj (htext.symm.trans h)).1 hbrace
  · rw [if_neg hnamespace, ofDigits?_text, ofGroups?_text]
    rfl

end Tableflow.RunId
