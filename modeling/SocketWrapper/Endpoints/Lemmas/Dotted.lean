import SocketWrapper.Endpoints.Parsing
import SocketWrapper.Interfaces.Lemmas.Texts

/-!
# An IPv4 address is read as it was written
-/

namespace SocketWrapper.Endpoints

open Numerals Interfaces

variable {b d n o octets tp v width : ℕ} {digits done os : List ℕ} {rest : List Char}

/-! ## Pieces -/

theorem pieces_succ {w : ℕ} (a : BitVec w) :
    pieces width (n + 1) a = a.toNat / (2 ^ width) ^ n % 2 ^ width :: pieces width n a := by
  simp only [pieces, List.range_succ_eq_map, List.map_cons, List.map_map, Nat.add_sub_cancel, Nat.sub_zero,
    BitVec.toNat_ushiftRight, Nat.shiftRight_eq_div_pow, ← Nat.pow_mul, List.cons.injEq, true_and]
  apply List.map_congr_left
  intro i hi
  have hlt : i < n := List.mem_range.mp hi
  rw [Function.comp_apply, show n - i.succ = n - 1 - i by omega]

/-- The pieces are the digits of the number. -/
theorem value_pieces {w : ℕ} (width : ℕ) (a : BitVec w) :
    value (2 ^ width) v (pieces width n a) = v * (2 ^ width) ^ n + a.toNat % (2 ^ width) ^ n := by
  induction n generalizing v with
  | zero => simp [pieces, Nat.mod_one]
  | succ n ih =>
      rw [pieces_succ, value_cons, ih, Nat.pow_succ, Nat.mod_mul]
      ring

theorem value_octets (a : BitVec 32) : value 256 0 (Interfaces.octets a) = a.toNat := by
  have hvalue := value_pieces 8 (n := 4) (v := 0) a
  rw [Nat.zero_mul, Nat.zero_add] at hvalue
  exact hvalue.trans (Nat.mod_eq_of_lt a.isLt)

theorem lt_of_mem_octets {a : BitVec 32} (h : o ∈ Interfaces.octets a) : o < 256 := lt_of_mem_pieces h

/-! ## Digits -/

theorem isDigit_digitChar : ∀ {d : ℕ}, d < 10 → isDigit d.digitChar = true := by decide

theorem toNat_digitChar : ∀ {d : ℕ}, d < 10 → d.digitChar.toNat - '0'.toNat = d := by decide

theorem hexDigitValue_digitChar : ∀ {d : ℕ}, d < 16 → hexDigitValue d.digitChar = some d := by decide

/-! ## `inet_pton` -/

theorem scanOctets_digits (hlt : ∀ d ∈ digits, d < 10) (hvalue : value 10 tp digits ≤ 255)
    (htp : tp ≠ 0 ∨ digits = []) :
    scanOctets done tp true octets (digits.map Nat.digitChar ++ rest) =
      scanOctets done (value 10 tp digits) true octets rest := by
  induction digits generalizing tp with
  | nil => rfl
  | cons d digits ih =>
      have hd : d < 10 := hlt d List.mem_cons_self
      have hne : tp ≠ 0 := htp.resolve_right (by simp)
      have hle : tp * 10 + d ≤ 255 := (le_value (by decide)).trans hvalue
      rw [List.map_cons, List.cons_append, scanOctets, if_pos (isDigit_digitChar hd), toNat_digitChar hd,
        if_neg (by simpa using hne), if_neg (by omega), if_pos rfl]
      exact ih (fun d hd => hlt d (List.mem_cons_of_mem _ hd)) hvalue (.inl (by omega))

theorem scanOctets_octet (ho : o < 256) (hoctets : octets < 4) :
    scanOctets done 0 false octets (Nat.toDigits 10 o ++ rest) = scanOctets done o true (octets + 1) rest := by
  obtain ⟨digits, htext, hwrites⟩ := exists_writes (b := 10) (by decide) o
  rw [htext]
  cases digits with
  | nil => exact absurd rfl hwrites.ne_nil
  | cons d digits =>
      have hd : d < 10 := hwrites.lt d List.mem_cons_self
      have hvalue : value 10 d digits = o := by simpa using hwrites.value
      rw [List.map_cons, List.cons_append, scanOctets, if_pos (isDigit_digitChar hd), toNat_digitChar hd,
        if_neg (by simp), if_neg (by omega), if_neg (by simp), if_neg (by omega), Nat.zero_mul, Nat.zero_add,
        scanOctets_digits (fun d hd => hwrites.lt d (List.mem_cons_of_mem _ hd)) (by omega) ?_, hvalue]
      rcases hwrites.head with hzero | hne
      · exact .inr (List.cons.inj hzero).2
      · exact .inl (by simpa using hne)

theorem scanOctets_intercalate (hos : ∀ o ∈ os, o < 256) (hlen : done.length + os.length = 4)
    (hne : os ≠ []) :
    scanOctets done 0 false done.length (['.'].intercalate (os.map (Nat.toDigits 10))) = some (done ++ os) := by
  induction os generalizing done with
  | nil => exact absurd rfl hne
  | cons o os ih =>
      have ho : o < 256 := hos o List.mem_cons_self
      rw [List.length_cons] at hlen
      cases os with
      | nil =>
          have hoctet : scanOctets done 0 false done.length (Nat.toDigits 10 o ++ []) =
              scanOctets done o true (done.length + 1) [] := scanOctets_octet ho (by omega)
          rw [List.append_nil] at hoctet
          rw [List.map_singleton, List.intercalate_singleton, hoctet, scanOctets, if_neg (by simp at hlen; omega)]
      | cons o' os =>
          have hrest : scanOctets (done ++ [o]) 0 false (done ++ [o]).length
              (['.'].intercalate ((o' :: os).map (Nat.toDigits 10))) = some (done ++ [o] ++ o' :: os) :=
            ih (fun o ho => hos o (List.mem_cons_of_mem _ ho))
              (by simpa [Nat.add_assoc, Nat.add_comm, Nat.add_left_comm] using hlen) (by simp)
          rw [List.map_cons, List.map_cons, List.intercalate_cons_cons, List.append_assoc,
            scanOctets_octet ho (by simp at hlen; omega), List.singleton_append, scanOctets,
            if_neg (by decide), if_pos ⟨rfl, rfl⟩, if_neg (by simp at hlen; omega)]
          rw [List.length_append, List.length_singleton] at hrest
          rw [← List.map_cons, hrest, List.append_assoc, List.singleton_append]

theorem inetPton4_dotted (a : BitVec 32) : inetPton4 (dotted a) = some (Interfaces.octets a) :=
  @scanOctets_intercalate [] (Interfaces.octets a) (fun _ => lt_of_mem_octets) (by simp [Interfaces.octets])
    (by simp [← List.length_pos_iff, Interfaces.octets])

/-! ## `inet_addr` -/

theorem filterMap_digitChar (hlt : ∀ d ∈ digits, d < 16) :
    (digits.map Nat.digitChar).filterMap hexDigitValue = digits := by
  induction digits with
  | nil => rfl
  | cons d digits ih =>
      rw [List.map_cons, List.filterMap_cons, hexDigitValue_digitChar (hlt d List.mem_cons_self),
        ih fun d hd => hlt d (List.mem_cons_of_mem _ hd)]

/-- A numeral ends where no digit of its base follows. -/
theorem numeral_digits (hb : b ≤ 16) (hwrites : Writes b n digits)
    (hrest : ∀ c ∈ rest.head?, (hexDigitValue c).any (· < b) = false) :
    numeral b (digits.map Nat.digitChar ++ rest) = (n, rest) := by
  have hall : ∀ c ∈ digits.map Nat.digitChar, (hexDigitValue c).any (· < b) = true := by
    intro c hc
    obtain ⟨d, hd, rfl⟩ := List.mem_map.mp hc
    have hlt : d < b := hwrites.lt d hd
    simp [hexDigitValue_digitChar (hlt.trans_le hb), hlt]
  have htake : rest.takeWhile (fun c => (hexDigitValue c).any (· < b)) = [] := by
    cases rest with
    | nil => rfl
    | cons c rest => exact List.takeWhile_cons_of_neg (by simpa using hrest c rfl)
  have hdrop : rest.dropWhile (fun c => (hexDigitValue c).any (· < b)) = rest := by
    cases rest with
    | nil => rfl
    | cons c rest => exact List.dropWhile_cons_of_neg (by simpa using hrest c rfl)
  have hdigits : ∀ d ∈ digits, d < 16 := fun d hd => (hwrites.lt d hd).trans_le hb
  simp only [numeral, List.takeWhile_append_of_pos hall, htake, List.append_nil, filterMap_digitChar hdigits,
    hwrites.value, List.dropWhile_append_of_pos hall, hdrop]

/-- An octet has no leading zero, so it is not taken for an octal one. -/
theorem strtoul_octet (hrest : ∀ c ∈ rest.head?, c = '.') :
    strtoul (Nat.toDigits 10 o ++ rest) = (o, rest) := by
  have hdot : ∀ b, ∀ c ∈ rest.head?, (hexDigitValue c).any (· < b) = false := by
    intro b c hc
    rw [hrest c hc]
    rfl
  obtain ⟨digits, htext, hwrites⟩ := exists_writes (b := 10) (by decide) o
  rw [htext]
  rcases hwrites.head with rfl | hne
  · have hzero : o = 0 := by simpa using hwrites.value.symm
    subst hzero
    have hoctal := numeral_digits (b := 8) (by decide) (Writes.single (n := 0) (by decide)) (hdot 8)
    cases rest with
    | nil => exact hoctal
    | cons c rest =>
        obtain rfl : c = '.' := hrest c rfl
        exact hoctal
  · have hdecimal := numeral_digits (b := 10) (by decide) hwrites (hdot 10)
    cases digits with
    | nil => exact absurd rfl hwrites.ne_nil
    | cons d digits =>
        have hd : d.digitChar ≠ '0' := by
          rw [Ne, Nat.digitChar_eq_zero]
          simpa using hne
        rw [List.map_cons, List.cons_append] at hdecimal ⊢
        unfold strtoul
        split
        · rename_i heq
          exact absurd (List.cons.inj heq).1 hd
        · rename_i heq
          exact absurd (List.cons.inj heq).1 hd
        · exact hdecimal

theorem head_octet (rest : List Char) : (Nat.toDigits 10 o ++ rest).head?.any isDigit = true := by
  obtain ⟨digits, htext, hwrites⟩ := exists_writes (b := 10) (by decide) o
  rw [htext]
  cases digits with
  | nil => exact absurd rfl hwrites.ne_nil
  | cons d digits => exact isDigit_digitChar (hwrites.lt d List.mem_cons_self)

theorem parts_intercalate (hos : ∀ o' ∈ os, o' < 256) (ho : o < 256) :
    parts os.length (['.'].intercalate ((os ++ [o]).map (Nat.toDigits 10))) = some (os, o, []) := by
  induction os with
  | nil =>
      have hread : strtoul (Nat.toDigits 10 o ++ []) = (o, []) := strtoul_octet (by simp)
      have hhead := head_octet (o := o) []
      rw [List.append_nil] at hread hhead
      rw [List.nil_append, List.map_singleton, List.intercalate_singleton]
      unfold parts
      simp only [hhead, hread, Bool.not_true, Bool.false_eq_true, ↓reduceIte]
      rw [if_neg (by omega)]
  | cons o' os ih =>
      have ho' : o' < 256 := hos o' List.mem_cons_self
      have hrest := ih fun o ho => hos o (List.mem_cons_of_mem _ ho)
      have htext : ['.'].intercalate ((o' :: os ++ [o]).map (Nat.toDigits 10)) =
          Nat.toDigits 10 o' ++ '.' :: ['.'].intercalate ((os ++ [o]).map (Nat.toDigits 10)) := by
        rw [List.cons_append, List.map_cons, List.intercalate_cons_of_ne_nil (by simp), List.append_assoc]
        rfl
      have hread : strtoul (Nat.toDigits 10 o' ++ '.' :: ['.'].intercalate ((os ++ [o]).map (Nat.toDigits 10))) =
          (o', '.' :: ['.'].intercalate ((os ++ [o]).map (Nat.toDigits 10))) := strtoul_octet (by simp)
      rw [htext, List.length_cons]
      unfold parts
      simp only [head_octet, hread, Bool.not_true, Bool.false_eq_true, ↓reduceIte]
      rw [if_neg (by omega), hrest]
      rfl

theorem inetAton_dotted (a : BitVec 32) : inetAton (dotted a) = some a := by
  have hparts : ∃ first o, Interfaces.octets a = first ++ [o] ∧ first.length = 3 :=
    ⟨[_, _, _], _, rfl, rfl⟩
  obtain ⟨first, o, hoctets, hlen⟩ := hparts
  have hlt : ∀ o' ∈ first ++ [o], o' < 256 := by
    rw [← hoctets]
    exact fun _ => lt_of_mem_octets
  have ho : o < 256 := hlt o (by simp)
  have hread := parts_intercalate (fun o' ho' => hlt o' (List.mem_append_left _ ho')) ho
  have hvalue := value_octets a
  rw [hoctets, value_append] at hvalue
  rw [hlen, ← hoctets] at hread
  rw [inetAton, dotted, hread]
  simp only [List.head?_nil, Option.all_none, Bool.not_true, Bool.false_eq_true, ↓reduceIte, hlen]
  rw [if_neg (by simp [maxLast]; omega)]
  simp only [value_cons, value_nil] at hvalue
  rw [show 8 * (4 - 3) = 8 from rfl, show (2 : ℕ) ^ 8 = 256 from rfl, hvalue, BitVec.ofNat_toNat,
    BitVec.setWidth_eq]

end SocketWrapper.Endpoints
