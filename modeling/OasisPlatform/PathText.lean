import Mathlib.Data.List.TakeWhile

/-!
File names as text: the last component of a path, its suffixes, stem and
extension as `pathlib` takes them apart, and `str.rstrip`, which strips any of a
set of characters and not a suffix.
-/
namespace OasisPlatform.PathText
set_option linter.unusedSimpArgs false

abbrev Text := List Char

instance : LawfulBEq Text := inferInstance

/-- `PurePath.name`: what follows the last slash. -/
def pathName (path : Text) : Text := (path.reverse.takeWhile (· ≠ '/')).reverse

/-- `str.split` on one character. -/
def splitOnChar (sep : Char) : Text → List Text
  | [] => [[]]
  | c :: rest =>
    if c = sep then [] :: splitOnChar sep rest
    else
      match splitOnChar sep rest with
      | [] => [[c]]
      | part :: parts => (c :: part) :: parts

/-- `PurePath.suffixes` of a name. -/
def suffixes (name : Text) : List Text :=
  if name.getLast? = some '.' then []
  else ((splitOnChar '.' (name.dropWhile (· = '.'))).drop 1).map ('.' :: ·)

/-- A name cut at its last dot, when that is neither its first nor its last
    character. -/
def cutExtension (name : Text) : Text × Text :=
  let ext := (name.reverse.takeWhile (· ≠ '.')).reverse
  let base := name.take (name.length - ext.length - 1)
  if '.' ∈ name ∧ base ≠ [] ∧ ext ≠ [] then (base,'.' :: ext) else (name,[])

/-- `PurePath.stem` of a name. -/
def stem (name : Text) : Text := (cutExtension name).1

/-- `PurePath.suffix` of a name. -/
def suffix (name : Text) : Text := (cutExtension name).2

/-- `str.rstrip`: drops the trailing characters that are among the given ones. -/
def rstrip (text chars : Text) : Text := (text.reverse.dropWhile (· ∈ chars)).reverse

/-- The decimal digits of a number in an f-string. -/
def decimal (n : Nat) : Text := Nat.toDigits 10 n

theorem decimal_digit {n : Nat} {c : Char} (member : c ∈ decimal n) : c.isDigit :=
  Nat.isDigit_of_mem_toDigits (by omega) (by omega) member

theorem decimal_ne_nil (n : Nat) : decimal n ≠ [] := Nat.toDigits_ne_nil

theorem decimal_injective {m n : Nat} (same : decimal m = decimal n) : m = n := by
  have value := congrArg (Nat.ofDigitChars 10 · 0) same
  simpa only [decimal,Nat.ofDigitChars_ten_toDigits] using value

theorem pathName_append {dir name : Text} (flat : '/' ∉ name) : pathName (dir ++ '/' :: name) = name := by
  have reversed : (dir ++ '/' :: name).reverse = name.reverse ++ '/' :: dir.reverse := by simp
  rw [pathName,reversed,List.takeWhile_append_of_pos]
  · simp
  · intro c member
    rw [List.mem_reverse] at member
    simp only [decide_eq_true_eq]
    rintro rfl
    exact flat member

theorem splitOnChar_append {sep : Char} {part : Text} (free : sep ∉ part) (rest : Text) :
    splitOnChar sep (part ++ sep :: rest) = part :: splitOnChar sep rest := by
  induction part with
  | nil => simp [splitOnChar]
  | cons c part ih =>
    simp only [List.mem_cons,not_or] at free
    simp [splitOnChar,Ne.symm free.1,ih free.2]

theorem splitOnChar_free {sep : Char} {text : Text} (free : sep ∉ text) : splitOnChar sep text = [text] := by
  induction text with
  | nil => rfl
  | cons c text ih =>
    simp only [List.mem_cons,not_or] at free
    simp [splitOnChar,Ne.symm free.1,ih free.2]

/-- No part has the character that the text was split at. -/
theorem splitOnChar_part {sep : Char} {text part : Text} (listed : part ∈ splitOnChar sep text) : sep ∉ part := by
  induction text generalizing part with
  | nil =>
    rw [List.mem_singleton.mp listed]
    exact List.not_mem_nil
  | cons c text ih =>
    simp only [splitOnChar] at listed
    split_ifs at listed with same
    · rcases List.mem_cons.mp listed with rfl | rest
      · exact List.not_mem_nil
      · exact ih rest
    · split at listed
      · rw [List.mem_singleton.mp listed,List.mem_singleton]
        exact Ne.symm same
      · rename_i first parts split
        rcases List.mem_cons.mp listed with rfl | rest
        · rw [List.mem_cons,not_or]
          exact ⟨Ne.symm same,ih (by rw [split]; exact List.mem_cons_self)⟩
        · exact ih (by rw [split]; exact List.mem_cons_of_mem _ rest)

/-- Stripping stops at the last character that is not among the given ones. -/
theorem rstrip_append {base tail chars : Text} {last : Char} (stripped : ∀ c ∈ tail, c ∈ chars)
    (ends : base.getLast? = some last) (kept : last ∉ chars) : rstrip (base ++ tail) chars = base := by
  have reversed : (base ++ tail).reverse = tail.reverse ++ base.reverse := by simp
  rw [rstrip,reversed,List.dropWhile_append_of_pos]
  · obtain ⟨front,rfl⟩ := List.getLast?_eq_some_iff.mp ends
    simp [kept]
  · intro c member
    simpa using stripped c (List.mem_reverse.mp member)

end OasisPlatform.PathText
