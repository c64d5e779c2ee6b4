import Mathlib.Logic.Function.Basic
import Mathlib.Tactic.Common

/-! # Path segments -/

namespace Lib

/-! ## Words that tell where they end -/

theorem flatMap_injective {α β : Type} {f : α → List β} (read : List β → Option α)
    (hread : ∀ a rest, read (f a ++ rest) = some a) (hnil : read [] = none) :
    Function.Injective (List.flatMap f) := by
  intro l
  induction l with
  | nil =>
    intro l' h
    cases l' with
    | nil => rfl
    | cons b l' =>
      have hb := hread b (l'.flatMap f)
      rw [← List.flatMap_cons, ← h, List.flatMap_nil, hnil] at hb
      cases hb
  | cons a l ih =>
    intro l' h
    cases l' with
    | nil =>
      have ha := hread a (l.flatMap f)
      rw [← List.flatMap_cons, h, List.flatMap_nil, hnil] at ha
      cases ha
    | cons b l' =>
      rw [List.flatMap_cons, List.flatMap_cons] at h
      have hab : some a = some b := by rw [← hread a (l.flatMap f), h, hread]
      obtain rfl := Option.some.inj hab
      rw [ih (List.append_cancel_left h)]

/-! ## Escaping -/

def hexDigit (n : ℕ) : Char := Char.ofNat (if n < 10 then 48 + n else 55 + n)

def keptInPath (b : UInt8) : Bool :=
  let c := Char.ofNat b.toNat
  c.isAlphanum || c ∈ ['-', '_', '.', '~', '$', '&', '+', ':', '=', '@']

def escapeByte (b : UInt8) : List Char :=
  if keptInPath b then [Char.ofNat b.toNat] else ['%', hexDigit (b.toNat / 16), hexDigit (b.toNat % 16)]

def pathEscape (s : String) : String := String.ofList (s.toUTF8.data.toList.flatMap escapeByte)

def hexValue (c : Char) : ℕ := if c.toNat < 58 then c.toNat - 48 else c.toNat - 55

def firstByte : List Char → Option UInt8
  | '%' :: high :: low :: _ => some (.ofNat (16 * hexValue high + hexValue low))
  | c :: _ => some (.ofNat c.toNat)
  | [] => none

theorem escapeByte_table : ∀ n : Fin 256,
    firstByte (escapeByte (.ofNat n)) = some (.ofNat n) ∧ '/' ∉ escapeByte (.ofNat n) ∧
    (keptInPath (.ofNat n) = true → Char.ofNat n ≠ '%') := by
  decide +kernel

theorem escapeByte_spec (b : UInt8) :
    firstByte (escapeByte b) = some b ∧ '/' ∉ escapeByte b ∧ (keptInPath b = true → Char.ofNat b.toNat ≠ '%') := by
  have h := escapeByte_table ⟨b.toNat, b.toNat_lt⟩
  simpa using h

theorem firstByte_escapeByte (b : UInt8) (rest : List Char) : firstByte (escapeByte b ++ rest) = some b := by
  obtain ⟨hword, -, hkept⟩ := escapeByte_spec b
  rw [← hword]
  unfold escapeByte
  split
  · rename_i h
    have := hkept h
    simp [firstByte, this]
  · rfl

theorem pathEscape_injective : Function.Injective pathEscape := by
  intro s t h
  have hbytes := flatMap_injective firstByte firstByte_escapeByte rfl (String.ofList_injective h)
  exact String.toByteArray_inj.mp (ByteArray.ext (Array.toList_inj.mp hbytes))

theorem slash_not_mem_pathEscape (s : String) : '/' ∉ (pathEscape s).toList := by
  rw [pathEscape, String.toList_ofList, List.mem_flatMap]
  rintro ⟨b, -, hb⟩
  exact (escapeByte_spec b).2.1 hb

/-! ## Unescaping -/

def isHex (b : UInt8) : Bool := (48 ≤ b && b ≤ 57) || (97 ≤ b && b ≤ 102) || (65 ≤ b && b ≤ 70)

def unhex (b : UInt8) : UInt8 :=
  if 48 ≤ b && b ≤ 57 then b - 48 else if 97 ≤ b && b ≤ 102 then b - 97 + 10 else b - 65 + 10

/-- `url.PathUnescape` reads bytes and returns bytes, which need not be text. -/
def pathUnescape : List UInt8 → Option (List UInt8)
  | [] => some []
  | b :: rest =>
    if b = 37 then
      match rest with
      | high :: low :: rest =>
        if isHex high && isHex low then (pathUnescape rest).map ((unhex high * 16 + unhex low) :: ·) else none
      | _ => none
    else (pathUnescape rest).map (b :: ·)

def escapedBytes (b : UInt8) : List UInt8 := (escapeByte b).map fun c => .ofNat c.toNat

def isWord (b : UInt8) : List UInt8 → Bool
  | [c] => c ≠ 37 && c = b
  | [c, high, low] => c = 37 && (isHex high && isHex low) && unhex high * 16 + unhex low = b
  | _ => false

theorem escapedBytes_table : ∀ n : Fin 256,
    isWord (.ofNat n) (escapedBytes (.ofNat n)) = true ∧ 47 ∉ escapedBytes (.ofNat n) := by
  decide +kernel

theorem escapedBytes_spec (b : UInt8) : isWord b (escapedBytes b) = true ∧ 47 ∉ escapedBytes b := by
  have h := escapedBytes_table ⟨b.toNat, b.toNat_lt⟩
  simpa using h

theorem pathUnescape_word {b : UInt8} {word : List UInt8} (h : isWord b word = true) (rest : List UInt8) :
    pathUnescape (word ++ rest) = (pathUnescape rest).map (b :: ·) := by
  unfold isWord at h
  split at h
  · simp only [Bool.and_eq_true, decide_eq_true_eq] at h
    obtain ⟨hplain, rfl⟩ := h
    -- the definition looks two bytes ahead
    rcases rest with _ | ⟨high, _ | ⟨low, rest⟩⟩ <;> simp [pathUnescape, hplain]
  · rename_i c high low
    simp only [Bool.and_eq_true, decide_eq_true_eq] at h
    obtain ⟨⟨rfl, hhex⟩, hvalue⟩ := h
    simp only [List.cons_append, List.nil_append, pathUnescape, if_true, hhex, hvalue, Bool.and_self]
  · cases h

theorem pathUnescape_escaped (name : List UInt8) : pathUnescape (name.flatMap escapedBytes) = some name := by
  induction name with
  | nil => rfl
  | cons b rest ih =>
    rw [List.flatMap_cons, pathUnescape_word (escapedBytes_spec b).1, ih, Option.map_some]

/-! ## Texts -/

def pathUnescapeText (s : String) : Option String :=
  (pathUnescape s.toUTF8.data.toList).bind fun bytes => String.fromUTF8? ⟨bytes.toArray⟩

theorem escapeByte_ascii_table :
    ∀ n : Fin 256, (escapeByte (.ofNat n)).all (fun c => c.toNat < 128) = true := by decide +kernel

theorem escapeByte_ascii (b : UInt8) : ∀ c ∈ escapeByte b, c.toNat < 128 := by
  have h := escapeByte_ascii_table ⟨b.toNat, b.toNat_lt⟩
  rw [UInt8.ofNat_toNat] at h
  simpa only [List.all_eq_true, decide_eq_true_eq] using h

theorem toUTF8_of_ascii {l : List Char} (h : ∀ c ∈ l, c.toNat < 128) :
    (String.ofList l).toUTF8.data.toList = l.map fun c => .ofNat c.toNat := by
  have hencode : (String.ofList l).toUTF8.data.toList = l.flatMap String.utf8EncodeChar := by
    simp [List.utf8Encode]
  rw [hencode]
  clear hencode
  induction l with
  | nil => rfl
  | cons c rest ih =>
    obtain ⟨hc, hrest⟩ := List.forall_mem_cons.mp h
    have hsize : c.utf8Size = 1 := by
      rw [Char.utf8Size_eq_one_iff, UInt32.le_iff_toNat_le]
      change c.toNat ≤ 127
      omega
    rw [List.flatMap_cons, ih hrest, String.utf8EncodeChar_eq_singleton hsize]
    rfl

theorem pathUnescapeText_pathEscape (s : String) : pathUnescapeText (pathEscape s) = some s := by
  have hbytes : (pathEscape s).toUTF8.data.toList = s.toUTF8.data.toList.flatMap escapedBytes := by
    rw [pathEscape, toUTF8_of_ascii, List.map_flatMap]
    · rfl
    · intro c hc
      obtain ⟨b, -, hb⟩ := List.mem_flatMap.mp hc
      exact escapeByte_ascii b c hb
  have harray : s.toUTF8.data.toList.toArray = s.toUTF8.data := Array.toArray_toList
  have hvalid : (ByteArray.mk s.toUTF8.data).IsValidUTF8 := s.isValidUTF8
  rw [pathUnescapeText, hbytes, pathUnescape_escaped, Option.bind_some, String.fromUTF8?, harray, dif_pos hvalid]
  rfl

end Lib
