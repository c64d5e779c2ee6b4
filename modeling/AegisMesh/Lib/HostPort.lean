import Mathlib.Data.List.Basic
import Mathlib.Tactic.IntervalCases

/-!
# Network addresses as text

The parts of Go's `net` and `strconv` for an IPv4 address with a port. The parser of IPv6 addresses is a
parameter.
-/

namespace Lib

/-! ## Decimal numbers -/

def decimal (n : ℕ) : List Char := Nat.toDigits 10 n

def digitValue (c : Char) : ℕ := c.toNat - 48

def atoi (s : List Char) : Option ℤ :=
  let signed : Bool × List Char := match s with
    | '-' :: rest => (true, rest)
    | '+' :: rest => (false, rest)
    | _ => (false, s)
  let value := signed.2.foldl (fun value c => 10 * value + digitValue c) 0
  if signed.2 = [] ∨ !signed.2.all Char.isDigit then none
  else if signed.1 then if 2 ^ 63 < value then none else some (-(value : ℤ))
  else if 2 ^ 63 ≤ value then none else some (value : ℤ)

theorem digitChar_spec {d : ℕ} (h : d < 10) :
    (Nat.digitChar d).isDigit = true ∧ digitValue (Nat.digitChar d) = d := by
  interval_cases d <;> decide

theorem decimal_eq (n : ℕ) :
    decimal n = (if n < 10 then [] else decimal (n / 10)) ++ [Nat.digitChar (n % 10)] := by
  unfold decimal
  rw [Nat.toDigits_eq_if (by omega)]
  split
  · rw [Nat.mod_eq_of_lt (by omega)]
    rfl
  · rfl

theorem decimal_ne_nil (n : ℕ) : decimal n ≠ [] := by
  rw [decimal_eq]
  simp

theorem isDigit_of_mem_decimal (n : ℕ) : ∀ c ∈ decimal n, c.isDigit = true := by
  induction n using Nat.strong_induction_on with
  | _ n ih =>
    intro c hc
    rw [decimal_eq, List.mem_append, List.mem_singleton] at hc
    rcases hc with hc | rfl
    · split at hc
      · simp at hc
      · exact ih (n / 10) (by omega) c hc
    · exact (digitChar_spec (Nat.mod_lt n (by omega))).1

theorem not_mem_decimal {c : Char} (hc : c.isDigit = false) (n : ℕ) : c ∉ decimal n := by
  intro hmem
  rw [isDigit_of_mem_decimal n c hmem] at hc
  cases hc

theorem foldl_decimal (n : ℕ) : (decimal n).foldl (fun value c => 10 * value + digitValue c) 0 = n := by
  induction n using Nat.strong_induction_on with
  | _ n ih =>
    have hlast := (digitChar_spec (Nat.mod_lt n (show 10 > 0 by omega))).2
    rw [decimal_eq, List.foldl_append]
    split
    · simp only [List.foldl_nil, List.foldl_cons, hlast]
      omega
    · rw [ih (n / 10) (by omega)]
      simp only [List.foldl_nil, List.foldl_cons, hlast]
      omega

theorem atoi_decimal {n : ℕ} (h : n < 2 ^ 63) : atoi (decimal n) = some (n : ℤ) := by
  have hunsigned : (match decimal n with
      | '-' :: rest => (true, rest)
      | '+' :: rest => (false, rest)
      | _ => (false, decimal n)) = (false, decimal n) := by
    split
    · rename_i rest heq
      exact absurd (heq ▸ List.mem_cons_self) (not_mem_decimal (by decide) n)
    · rename_i rest heq
      exact absurd (heq ▸ List.mem_cons_self) (not_mem_decimal (by decide) n)
    · rfl
  have hdigits : (decimal n).all Char.isDigit = true := List.all_eq_true.mpr (isDigit_of_mem_decimal n)
  unfold atoi
  simp only [hunsigned, foldl_decimal, hdigits, decimal_ne_nil]
  simpa using h

/-! ## Dotted decimals -/

def dotted (a b c d : UInt8) : List Char :=
  decimal a.toNat ++ '.' :: (decimal b.toNat ++ '.' :: (decimal c.toNat ++ '.' :: decimal d.toNat))

/-- The loop of `parseIPv4Fields` of `net/netip`: the octets that are done, and the value and the number of digits
of the one that is read. -/
def parseIPv4Fields : List Char → List UInt8 → ℕ → ℕ → Option (List UInt8)
  | [], fields, val, _ => if fields.length < 3 then none else some (fields ++ [.ofNat val])
  | c :: rest, fields, val, digLen =>
    if c.isDigit then
      if digLen = 1 ∧ val = 0 then none
      else if 255 < val * 10 + digitValue c then none
      else parseIPv4Fields rest fields (val * 10 + digitValue c) (digLen + 1)
    else if c = '.' then
      if digLen = 0 ∨ rest = [] then none
      else if fields.length = 3 then none
      else parseIPv4Fields rest (fields ++ [.ofNat val]) 0 0
    else none

def v4InV6Prefix : List UInt8 := [0, 0, 0, 0, 0, 0, 0, 0, 0, 0, 0xff, 0xff]

def parseIP (parseIPv6 : List Char → Option (List UInt8)) (s : List Char) : Option (List UInt8) :=
  match s.find? fun c => c = '.' ∨ c = ':' ∨ c = '%' with
  | some '.' => (parseIPv4Fields s [] 0 0).map (v4InV6Prefix ++ ·)
  | some ':' => parseIPv6 s
  | _ => none

def to4 (ip : List UInt8) : Option (List UInt8) :=
  if v4InV6Prefix.isPrefixOf ip then some (ip.drop 12) else none

theorem parseIPv4Fields_decimal {n : ℕ} (hn : n ≤ 255) (rest : List Char) (fields : List UInt8) :
    parseIPv4Fields (decimal n ++ rest) fields 0 0 = parseIPv4Fields rest fields n (decimal n).length := by
  induction n using Nat.strong_induction_on generalizing rest with
  | _ n ih =>
    obtain ⟨hdigit, hvalue⟩ := digitChar_spec (Nat.mod_lt n (show 10 > 0 by omega))
    rw [decimal_eq]
    by_cases hsmall : n < 10
    · rw [if_pos hsmall]
      simp only [List.nil_append, List.cons_append, parseIPv4Fields, hdigit, hvalue, if_true, List.length_singleton]
      rw [if_neg (by omega), if_neg (by omega), Nat.mod_eq_of_lt hsmall]
      simp
    · rw [if_neg hsmall, List.append_assoc, List.singleton_append, ih (n / 10) (by omega) (by omega)]
      simp only [parseIPv4Fields, hdigit, hvalue, if_true, List.length_append, List.length_singleton]
      -- there was a digit before this one, and it was not a lone zero
      rw [if_neg (by omega), if_neg (by omega)]
      congr 1
      omega

theorem parseIPv4Fields_octet {fields : List UInt8} (hfields : fields.length < 3) (b : UInt8) {rest : List Char}
    (hrest : rest ≠ []) :
    parseIPv4Fields (decimal b.toNat ++ '.' :: rest) fields 0 0 = parseIPv4Fields rest (fields ++ [b]) 0 0 := by
  have hb := b.toNat_lt
  have hdigits : (decimal b.toNat).length ≠ 0 := by
    rw [ne_eq, List.length_eq_zero_iff]
    exact decimal_ne_nil _
  have hdot : ('.').isDigit = false := by decide
  rw [parseIPv4Fields_decimal (by omega)]
  simp only [parseIPv4Fields, hdot, hdigits, hrest, or_self, if_false, if_true, Bool.false_eq_true]
  rw [if_neg (by omega), UInt8.ofNat_toNat]

theorem parseIPv4Fields_dotted (a b c d : UInt8) : parseIPv4Fields (dotted a b c d) [] 0 0 = some [a, b, c, d] := by
  have hd := d.toNat_lt
  have hlast : parseIPv4Fields (decimal d.toNat) [a, b, c] 0 0 = some [a, b, c, d] := by
    have hread := parseIPv4Fields_decimal (show d.toNat ≤ 255 by omega) [] [a, b, c]
    rw [List.append_nil] at hread
    rw [hread]
    simp [parseIPv4Fields]
  unfold dotted
  rw [parseIPv4Fields_octet (by simp) a (by simp), parseIPv4Fields_octet (by simp) b (by simp),
    parseIPv4Fields_octet (by simp) c (decimal_ne_nil _)]
  exact hlast

theorem parseIP_dotted (parseIPv6 : List Char → Option (List UInt8)) (a b c d : UInt8) :
    parseIP parseIPv6 (dotted a b c d) = some (v4InV6Prefix ++ [a, b, c, d]) := by
  have hfind : (dotted a b c d).find? (fun c => c = '.' ∨ c = ':' ∨ c = '%') = some '.' := by
    have hnone : (decimal a.toNat).find? (fun c => c = '.' ∨ c = ':' ∨ c = '%') = none := by
      rw [List.find?_eq_none]
      intro c hc
      simp only [decide_eq_true_eq]
      rintro (rfl | rfl | rfl) <;> exact not_mem_decimal (by decide) _ hc
    unfold dotted
    rw [List.find?_append, hnone]
    rfl
  unfold parseIP
  rw [hfind, parseIPv4Fields_dotted]
  rfl

theorem to4_mapped (octets : List UInt8) : to4 (v4InV6Prefix ++ octets) = some octets := by
  unfold to4
  rw [if_pos (by simp)]
  rfl

theorem mem_dotted {x : Char} {a b c d : UInt8} (h : x ∈ dotted a b c d) : x.isDigit = true ∨ x = '.' := by
  simp only [dotted, List.mem_append, List.mem_cons] at h
  rcases h with h | rfl | h | rfl | h | rfl | h
  · exact .inl (isDigit_of_mem_decimal _ x h)
  · exact .inr rfl
  · exact .inl (isDigit_of_mem_decimal _ x h)
  · exact .inr rfl
  · exact .inl (isDigit_of_mem_decimal _ x h)
  · exact .inr rfl
  · exact .inl (isDigit_of_mem_decimal _ x h)

/-! ## Host and port -/

def joinHostPort (host port : List Char) : List Char :=
  if ':' ∈ host then '[' :: (host ++ ']' :: ':' :: port) else host ++ ':' :: port

inductive AddrError
  | missingPort
  | tooManyColons
  | missingBracket
  | unexpectedOpening
  | unexpectedClosing
deriving DecidableEq, Repr

/-- `net.SplitHostPort`. A host with colons stands in brackets. -/
def splitHostPort (s : List Char) : Except AddrError (List Char × List Char) :=
  if ':' ∉ s then .error .missingPort
  else
    let port := (s.reverse.takeWhile (· ≠ ':')).reverse
    let colon := s.length - port.length - 1
    if s.head? = some '[' then
      let closing := s.idxOf ']'
      if ']' ∉ s then .error .missingBracket
      else if closing + 1 = s.length then .error .missingPort
      else if closing + 1 ≠ colon then
        if s[closing + 1]? = some ':' then .error .tooManyColons else .error .missingPort
      else if '[' ∈ s.drop 1 then .error .unexpectedOpening
      else if ']' ∈ s.drop (closing + 1) then .error .unexpectedClosing
      else .ok ((s.take closing).drop 1, port)
    else if ':' ∈ s.take colon then .error .tooManyColons
    else if '[' ∈ s then .error .unexpectedOpening
    else if ']' ∈ s then .error .unexpectedClosing
    else .ok (s.take colon, port)

def Plain (s : List Char) : Prop := ':' ∉ s ∧ '[' ∉ s ∧ ']' ∉ s

theorem splitHostPort_joinHostPort {host port : List Char} (hhost : Plain host) (hport : Plain port) :
    splitHostPort (joinHostPort host port) = .ok (host, port) := by
  have hlast : ((host ++ ':' :: port).reverse.takeWhile (· ≠ ':')).reverse = port := by
    have hreverse : (host ++ ':' :: port).reverse = port.reverse ++ ':' :: host.reverse := by simp
    have hall : ∀ c ∈ port.reverse, (decide (c ≠ ':')) = true := by
      intro c hc
      have hmem := List.mem_reverse.mp hc
      simp only [decide_eq_true_eq]
      rintro rfl
      exact hport.1 hmem
    rw [hreverse, List.takeWhile_append_of_pos hall]
    simp
  have hcolon : (host ++ ':' :: port).length - port.length - 1 = host.length := by
    simp
    omega
  have hopening : '[' ∉ host ++ ':' :: port := by simp [hhost.2.1, hport.2.1]
  have hclosing : ']' ∉ host ++ ':' :: port := by simp [hhost.2.2, hport.2.2]
  have hhead : (host ++ ':' :: port).head? ≠ some '[' := fun h => hopening (List.mem_of_mem_head? h)
  unfold joinHostPort
  rw [if_neg hhost.1]
  unfold splitHostPort
  simp only [hlast, hcolon, hhead, hopening, hclosing, List.take_left, hhost.1, if_false]
  simp

theorem plain_decimal (n : ℕ) : Plain (decimal n) :=
  ⟨not_mem_decimal (by decide) n, not_mem_decimal (by decide) n, not_mem_decimal (by decide) n⟩

theorem plain_dotted (a b c d : UInt8) : Plain (dotted a b c d) := by
  have hother : ∀ x : Char, x.isDigit = false → x ≠ '.' → x ∉ dotted a b c d := by
    intro x hdigit hdot hmem
    rcases mem_dotted hmem with h | h
    · rw [hdigit] at h
      cases h
    · exact hdot h
  exact ⟨hother _ (by decide) (by decide), hother _ (by decide) (by decide), hother _ (by decide) (by decide)⟩

end Lib
