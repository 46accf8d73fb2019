import SocketWrapper.Endpoints.Lemmas.Dotted

/-!
# An IPv6 address is read as it was written
-/

namespace SocketWrapper.Endpoints

open Numerals Interfaces

variable {i n v w : ℕ} {digits front back ws : List ℕ} {rest curtok text : List Char} {run : ZeroRun}
  {best cur : Option ZeroRun} {lastTwo : Option (List Char)} {s : Scanned} {colonp : Option ℕ}

/-! ## The run of zeros -/

/-- There are zeros where the run is said to be. -/
def RunIn (ws : List ℕ) (run : ZeroRun) : Prop :=
  ∃ front back, ws = front ++ List.replicate run.len 0 ++ back ∧ front.length = run.base

theorem RunIn.append (h : RunIn front run) (back : List ℕ) : RunIn (front ++ back) run := by
  obtain ⟨before, behind, rfl, hlen⟩ := h
  exact ⟨before, behind ++ back, by rw [List.append_assoc _ behind], hlen⟩

theorem longer_eq (best cur : Option ZeroRun) : longer best cur = best ∨ longer best cur = cur := by
  unfold longer
  split
  · split
    · exact .inr rfl
    · exact .inl rfl
  · exact .inr rfl
  · exact .inl rfl

/-- With `front` behind it: the run found so far is in there, and the current one is at its end. -/
theorem runIn_longestRun (hbest : ∀ run ∈ best, RunIn front run)
    (hcur : ∀ run ∈ cur, ∃ before, front = before ++ List.replicate run.len 0 ∧ before.length = run.base)
    (hrun : run ∈ longestRun best cur front.length ws) : RunIn (front ++ ws) run := by
  have hlonger : ∀ run ∈ longer best cur, RunIn front run := by
    intro run hrun
    rcases longer_eq best cur with heq | heq
    · exact hbest run (heq ▸ hrun)
    · obtain ⟨before, hfront, hlen⟩ := hcur run (heq ▸ hrun)
      exact ⟨before, [], by rw [List.append_nil, hfront], hlen⟩
  induction ws generalizing best cur front with
  | nil => exact (hlonger run hrun).append []
  | cons w ws ih =>
      have hlen : front.length + 1 = (front ++ [w]).length := by simp
      rw [show front ++ w :: ws = front ++ [w] ++ ws by simp]
      cases w with
      | zero =>
          rw [longestRun, hlen] at hrun
          have hnext : ∀ run ∈ some (cur.elim (⟨front.length, 1⟩ : ZeroRun) fun run => ⟨run.base, run.len + 1⟩),
              ∃ before, front ++ [0] = before ++ List.replicate run.len 0 ∧ before.length = run.base := by
            intro run hrun
            obtain rfl := Option.some.inj hrun
            cases cur with
            | none => exact ⟨front, rfl, rfl⟩
            | some run =>
                obtain ⟨before, hfront, hbase⟩ := hcur run rfl
                refine ⟨before, ?_, hbase⟩
                rw [Option.elim_some, List.replicate_succ', ← List.append_assoc, ← hfront]
          have hkept : ∀ run ∈ best, RunIn (front ++ [0]) run := fun run hrun => (hbest run hrun).append [0]
          refine ih hkept hnext hrun fun run hrun => ?_
          rcases longer_eq best _ with heq | heq
          · exact hkept run (heq ▸ hrun)
          · obtain ⟨before, hfront, hbase⟩ := hnext run (heq ▸ hrun)
            exact ⟨before, [], by rw [List.append_nil, hfront], hbase⟩
      | succ w =>
          rw [longestRun, hlen] at hrun
          have hkept : ∀ run ∈ longer best cur, RunIn (front ++ [w + 1]) run :=
            fun run hrun => (hlonger run hrun).append [w + 1]
          refine ih hkept (by simp) hrun fun run hrun => ?_
          rcases longer_eq (longer best cur) none with heq | heq
          · exact hkept run (heq ▸ hrun)
          · rw [heq] at hrun
            cases hrun

theorem runIn_bestRun (h : bestRun ws = some run) : RunIn ws run ∧ 2 ≤ run.len := by
  obtain ⟨hrun, hlen⟩ := Option.filter_eq_some_iff.mp h
  exact ⟨@runIn_longestRun [] ws run none none (by simp) (by simp) hrun, by simpa using hlen⟩

/-! ## The text -/

/-- The words with a colon before each. -/
def led (ws : List ℕ) : List Char := ws.flatMap fun w => ':' :: Nat.toDigits 16 w

/-- The words with a colon between two. -/
def joined : List ℕ → List Char
  | [] => []
  | w :: ws => Nat.toDigits 16 w ++ led ws

theorem led_cons (w : ℕ) (ws : List ℕ) : led (w :: ws) = ':' :: joined (w :: ws) := rfl

theorem colonised_outside (best : Option ZeroRun) (ws back : List ℕ) (hi : 0 < i)
    (hout : ∀ run ∈ best, ∀ j < ws.length, ¬ (run.base ≤ i + j ∧ i + j < run.base + run.len)) :
    colonised best none i (ws ++ back) = led ws ++ colonised best none (i + ws.length) back := by
  induction ws generalizing i with
  | nil => rfl
  | cons w ws ih =>
      have hfirst : ¬ (best.any fun run => run.base ≤ i && i < run.base + run.len) = true := by
        cases best with
        | none => simp
        | some run => simpa using hout run rfl 0 (by simp)
      have hrest := ih (Nat.succ_pos i) fun run hrun j hj => by
        have hnot := hout run hrun (j + 1) (by simpa using hj)
        rwa [show i + (j + 1) = i + 1 + j by omega] at hnot
      rw [List.cons_append, colonised, if_neg hfirst, if_neg (by omega), ite_self, Option.getD_none, hrest,
        List.length_cons, show i + 1 + ws.length = i + (ws.length + 1) by omega]
      simp [led]

theorem colonised_inside (hi : run.base < i) (hend : i + ws.length = run.base + run.len) :
    colonised (some run) lastTwo i (ws ++ back) =
      colonised (some run) lastTwo (run.base + run.len) back := by
  induction ws generalizing i with
  | nil =>
      rw [List.length_nil, Nat.add_zero] at hend
      rw [List.nil_append, hend]
  | cons w ws ih =>
      rw [List.length_cons] at hend
      have hin : (Option.any (fun run => run.base ≤ i && i < run.base + run.len) (some run)) = true := by
        simp
        omega
      have hnot : ¬ (Option.any (fun run => i == run.base) (some run)) = true := by
        simp
        omega
      rw [List.cons_append, colonised, if_pos hin, if_neg hnot, List.nil_append,
        ih (by omega) (by omega)]

/-- A run of zeros is written as one colon. -/
theorem colonised_run (run : ZeroRun) (lastTwo : Option (List Char)) (back : List ℕ) (hlen : 0 < run.len) :
    colonised (some run) lastTwo run.base (List.replicate run.len 0 ++ back) =
      ':' :: colonised (some run) lastTwo (run.base + run.len) back := by
  obtain ⟨len, hsucc⟩ := Nat.exists_eq_succ_of_ne_zero (Nat.ne_of_gt hlen)
  have hin : (Option.any (fun r => r.base ≤ run.base && run.base < r.base + r.len) (some run)) = true := by
    simpa using hlen
  have hat : (Option.any (fun r => run.base == r.base) (some run)) = true := by simp
  rw [hsucc, List.replicate_succ, List.cons_append, colonised, if_pos hin, if_pos hat,
    colonised_inside (Nat.lt_succ_self _) (by rw [List.length_replicate]; omega), hsucc]
  rfl

theorem colonised_behind (hlen : 0 < run.len) :
    colonised (some run) none (run.base + run.len) back = ':' :: joined back := by
  cases back with
  | nil => simp [colonised, joined]
  | cons w ws =>
      have houtside := colonised_outside (i := run.base + run.len) (some run) (w :: ws) [] (by omega) fun r hr j _ => by
          obtain rfl := Option.some.inj hr
          omega
      rw [List.append_nil] at houtside
      rw [houtside, colonised, if_neg (by simp), List.append_nil, led_cons]

theorem colonised_none (w : ℕ) (ws : List ℕ) : colonised none none 0 (w :: ws) = joined (w :: ws) := by
  have houtside := colonised_outside (i := 1) none ws [] (by decide) (by simp)
  rw [List.append_nil] at houtside
  rw [colonised, houtside]
  simp [colonised, joined]

theorem colonised_some (hlen : 0 < run.len) (hfront : front.length = run.base) :
    colonised (some run) none 0 (front ++ List.replicate run.len 0 ++ back) =
      joined front ++ ':' :: ':' :: joined back := by
  rw [List.append_assoc]
  cases front with
  | nil =>
      have hbase : run.base = 0 := hfront.symm
      have hrun := colonised_run run none back hlen
      rw [colonised_behind hlen, hbase] at hrun
      exact hrun
  | cons w ws =>
      rw [List.length_cons] at hfront
      have hfirst : ¬ (Option.any (fun r => r.base ≤ 0 && 0 < r.base + r.len) (some run)) = true := by
        simp
        omega
      have houtside := colonised_outside (i := 1) (some run) ws (List.replicate run.len 0 ++ back)
        (by decide) fun r hr j hj => by
          obtain rfl := Option.some.inj hr
          omega
      rw [List.cons_append, colonised, if_neg hfirst, if_pos rfl, if_neg (by decide), Option.getD_none,
        houtside, show 1 + ws.length = run.base by omega, colonised_run run none back hlen, colonised_behind hlen]
      simp [joined]

/-! ## Reading it -/

theorem scanWords_digits (hlt : ∀ d ∈ digits, d < 16) (hlen : n + digits.length ≤ 4)
    (hvalue : value 16 v digits ≤ 0xffff) :
    scanWords curtok ⟨ws, colonp, n, v⟩ (digits.map Nat.digitChar ++ rest) =
      scanWords curtok ⟨ws, colonp, n + digits.length, value 16 v digits⟩ rest := by
  induction digits generalizing n v with
  | nil => rfl
  | cons d digits ih =>
      have hd : d < 16 := hlt d List.mem_cons_self
      rw [List.length_cons] at hlen
      have hle : v * 16 + d ≤ 0xffff := (le_value (by decide)).trans hvalue
      rw [List.map_cons, List.cons_append, scanWords, hexDigitValue_digitChar hd]
      simp only
      rw [if_neg (by omega), if_neg (by omega), ih (fun d hd => hlt d (List.mem_cons_of_mem _ hd)) (by omega)
        hvalue, List.length_cons, show n + 1 + digits.length = n + (digits.length + 1) by omega]
      rfl

theorem scanWords_word (curtok : List Char) (ws : List ℕ) (colonp : Option ℕ) (rest : List Char)
    (hw : w < 2 ^ 16) :
    ∃ n, 0 < n ∧ scanWords curtok ⟨ws, colonp, 0, 0⟩ (Nat.toDigits 16 w ++ rest) =
      scanWords curtok ⟨ws, colonp, n, w⟩ rest := by
  obtain ⟨digits, htext, hwrites⟩ := exists_writes (b := 16) (by decide) w
  have hlen : (Nat.toDigits 16 w).length ≤ 4 := (Nat.length_toDigits_le_iff (by decide) (by decide)).mpr hw
  rw [htext, List.length_map] at hlen
  refine ⟨digits.length, List.length_pos_iff.mpr hwrites.ne_nil, ?_⟩
  rw [htext, scanWords_digits hwrites.lt (by omega) (by rw [hwrites.value]; omega), hwrites.value, Nat.zero_add]

theorem scanWords_colon {c : Char} (ws : List ℕ) (hn : 0 < n) (hws : ws.length < 8) :
    scanWords curtok ⟨ws, colonp, n, w⟩ (':' :: c :: rest) =
      scanWords (c :: rest) ⟨ws ++ [w], colonp, 0, 0⟩ (c :: rest) := by
  have hcolon : hexDigitValue ':' = none := rfl
  rw [scanWords, hcolon]
  simp only [↓reduceIte]
  rw [if_neg (by omega), if_neg (by simp), if_neg (by omega)]

theorem scanWords_colons :
    scanWords curtok ⟨ws, none, 0, 0⟩ (':' :: rest) = scanWords rest ⟨ws, some ws.length, 0, 0⟩ rest := by
  have hcolon : hexDigitValue ':' = none := rfl
  rw [scanWords, hcolon]
  rfl

/-- After the words but for the digits of the last one. -/
theorem scanWords_led (curtok rest : List Char) (front : List ℕ) (colonp : Option ℕ)
    (hws : ∀ w ∈ ws, w < 2 ^ 16) (hn : 0 < n) (hlen : front.length + ws.length < 8) :
    ∃ curtok' n' init last, 0 < n' ∧ front ++ w :: ws = init ++ [last] ∧
      scanWords curtok ⟨front, colonp, n, w⟩ (led ws ++ rest) =
        scanWords curtok' ⟨init, colonp, n', last⟩ rest := by
  induction ws generalizing front w n curtok with
  | nil => exact ⟨curtok, n, front, w, hn, rfl, rfl⟩
  | cons w' ws ih =>
      rw [List.length_cons] at hlen
      obtain ⟨c, text, htext⟩ : ∃ c text, Nat.toDigits 16 w' = c :: text :=
        List.exists_cons_of_ne_nil Nat.toDigits_ne_nil
      obtain ⟨n', hn', hword⟩ := scanWords_word (Nat.toDigits 16 w' ++ (led ws ++ rest)) (front ++ [w]) colonp
        (led ws ++ rest) (hws w' List.mem_cons_self)
      obtain ⟨curtok', n'', init, last, hpos, hinit, hrest⟩ := ih (w := w') (n := n')
        (Nat.toDigits 16 w' ++ (led ws ++ rest)) (front ++ [w]) (fun w hw => hws w (List.mem_cons_of_mem _ hw)) hn'
        (by simp; omega)
      refine ⟨curtok', n'', init, last, hpos, by simpa using hinit, ?_⟩
      rw [← hrest, ← hword, led_cons, joined, List.cons_append, List.append_assoc, htext, List.cons_append,
        scanWords_colon front hn (by omega)]

/-- The text is read to its end, as these words with so many of them before `::`. -/
def Reads (curtok : List Char) (s : Scanned) (text : List Char) (ws : List ℕ) (colonp : Option ℕ) : Prop :=
  ∃ s' s'', scanWords curtok s text = some s' ∧ s'.finish = some s'' ∧ s''.words = ws ∧ s''.colonp = colonp

theorem reads_joined (curtok : List Char) (front : List ℕ) (colonp : Option ℕ)
    (hws : ∀ w ∈ ws, w < 2 ^ 16) (hlen : front.length + ws.length ≤ 8) :
    Reads curtok ⟨front, colonp, 0, 0⟩ (joined ws) (front ++ ws) colonp := by
  cases ws with
  | nil => exact ⟨_, _, rfl, rfl, (List.append_nil front).symm, rfl⟩
  | cons w ws =>
      rw [List.length_cons] at hlen
      obtain ⟨n, hn, hword⟩ := scanWords_word curtok front colonp (led ws) (hws w List.mem_cons_self)
      obtain ⟨curtok', n', init, last, hpos, hinit, hrest⟩ := scanWords_led (w := w) curtok [] front colonp
        (fun w hw => hws w (List.mem_cons_of_mem _ hw)) hn (by omega)
      have hinitLen := congrArg List.length hinit
      simp only [List.length_append, List.length_cons, List.length_nil] at hinitLen
      rw [List.append_nil] at hrest
      refine ⟨⟨init, colonp, n', last⟩, ⟨init ++ [last], colonp, n', last⟩, ?_, ?_, hinit.symm, rfl⟩
      · rw [joined, hword, hrest, scanWords]
      · rw [Scanned.finish, if_pos hpos, if_neg (by simp only; omega)]

theorem reads_front (curtok : List Char) (hfront : ∀ w ∈ front, w < 2 ^ 16) (hlen : front.length ≤ 8) (hne : front ≠ [])
    (hback : Reads text ⟨front, some front.length, 0, 0⟩ text ws colonp) :
    Reads curtok ⟨[], none, 0, 0⟩ (joined front ++ ':' :: ':' :: text) ws colonp := by
  cases front with
  | nil => exact absurd rfl hne
  | cons w front =>
      rw [List.length_cons] at hlen
      obtain ⟨n, hn, hword⟩ := scanWords_word curtok [] none (led front ++ ':' :: ':' :: text)
        (hfront w List.mem_cons_self)
      obtain ⟨curtok', n', init, last, hpos, hinit, hrest⟩ := scanWords_led (w := w) curtok
        (':' :: ':' :: text) [] none (fun w hw => hfront w (List.mem_cons_of_mem _ hw)) hn (by simpa using hlen)
      rw [List.nil_append] at hinit
      have hinitLen := congrArg List.length hinit
      simp only [List.length_append, List.length_cons, List.length_nil] at hinitLen
      unfold Reads
      rw [joined, List.append_assoc, hword, hrest, scanWords_colon init hpos (by omega), scanWords_colons, ← hinit]
      exact hback

theorem scanAll_of_reads (h : Reads text ⟨[], none, 0, 0⟩ text ws colonp)
    (hwords : (⟨ws, colonp, 0, 0⟩ : Scanned).expand = some back) :
    scanAll text = some (.ofNat 128 (value (2 ^ 16) 0 back)) := by
  obtain ⟨s', ⟨words, colonp', n, v⟩, hscan, hfinish, rfl, rfl⟩ := h
  have hexpand : (⟨words, colonp', n, v⟩ : Scanned).expand = some back := hwords
  simp only [scanAll, hscan, hfinish, hexpand, Option.bind_eq_bind, Option.bind_some]
  rfl

theorem expand_run (front back : List ℕ) (hlen : front.length + n + back.length = 8) (hn : 0 < n) :
    (⟨front ++ back, some front.length, 0, 0⟩ : Scanned).expand = some (front ++ List.replicate n 0 ++ back) := by
  have hwords : (front ++ back).length = 8 - n := by
    rw [List.length_append]
    omega
  simp only [Scanned.expand, hwords]
  rw [if_neg (by omega), List.take_left, List.drop_left, show 8 - (8 - n) = n by omega]

/-- A text that does not begin with a colon. -/
theorem inetPton6_joined (front : List ℕ) (rest : List Char) (hne : front ≠ []) :
    inetPton6 (joined front ++ rest) = scanAll (joined front ++ rest) := by
  cases front with
  | nil => exact absurd rfl hne
  | cons w front =>
      obtain ⟨digits, htext, hwrites⟩ := exists_writes (b := 16) (by decide) w
      cases digits with
      | nil => exact absurd rfl hwrites.ne_nil
      | cons d digits =>
          have hd : d < 16 := hwrites.lt d List.mem_cons_self
          have hcolon : d.digitChar ≠ ':' := by
            intro heq
            have hvalue := hexDigitValue_digitChar hd
            rw [heq] at hvalue
            cases hvalue
          rw [joined, htext, List.map_cons, List.cons_append, List.cons_append]
          unfold inetPton6
          split
          · rename_i heq
            cases heq
          · rename_i heq
            exact absurd (List.cons.inj heq).1 hcolon
          · rfl

/-! ## The last two words as an IPv4 address -/

theorem reads_dotted (x : BitVec 32) (ws : List ℕ) (colonp : Option ℕ) {a b c d : ℕ} (hoctets : octets x = [a, b, c, d])
    (hlen : ws.length ≤ 6) :
    Reads (dotted x) ⟨ws, colonp, 0, 0⟩ (dotted x) (ws ++ [a * 256 + b, c * 256 + d]) colonp := by
  have ha : a < 256 := lt_of_mem_octets (a := x) (by simp [hoctets])
  obtain ⟨digits, htext, hwrites⟩ := exists_writes (b := 10) (by decide) a
  obtain ⟨text, hdotted⟩ : ∃ text, dotted x = digits.map Nat.digitChar ++ '.' :: text := by
    refine ⟨['.'].intercalate ([b, c, d].map (Nat.toDigits 10)), ?_⟩
    rw [dotted, hoctets, List.map_cons, htext, List.intercalate_cons_of_ne_nil (by simp), List.append_assoc]
    rfl
  have hdigits : digits.length ≤ 3 := by
    have hle : (Nat.toDigits 10 a).length ≤ 3 :=
      (Nat.length_toDigits_le_iff (by decide) (by decide)).mpr (by omega)
    rwa [htext, List.length_map] at hle
  have hlt : ∀ d ∈ digits, d < 16 := fun d hd => (hwrites.lt d hd).trans (by decide)
  have hvalue : value 16 0 digits ≤ 0xffff := by
    have hbound := value_lt (v := 0) hlt
    have hpow : 16 ^ digits.length ≤ 16 ^ 3 := Nat.pow_le_pow_right (by decide) hdigits
    omega
  have hpton := inetPton4_dotted x
  rw [hoctets] at hpton
  have hdot : hexDigitValue '.' = none := rfl
  refine ⟨⟨ws ++ [a * 256 + b, c * 256 + d], colonp, 0, value 16 0 digits⟩, _, ?_, rfl, rfl, rfl⟩
  have hscan : scanWords (dotted x) ⟨ws, colonp, 0, 0⟩ (digits.map Nat.digitChar ++ '.' :: text) =
      scanWords (dotted x) ⟨ws, colonp, 0 + digits.length, value 16 0 digits⟩ ('.' :: text) :=
    scanWords_digits hlt (by omega) hvalue
  rw [← hdotted] at hscan
  rw [hscan, scanWords, hdot]
  simp only [hpton]
  rw [if_neg (by decide), if_pos ⟨trivial, by omega⟩]

/-- Each of the last two words is two octets. -/
theorem words_dotted (a : BitVec 128) : ∃ o₁ o₂ o₃ o₄ first, octets (a.setWidth 32) = [o₁, o₂, o₃, o₄] ∧
    words a = first ++ [o₁ * 256 + o₂, o₃ * 256 + o₄] ∧ first.length = 6 := by
  have hwords : words a = (words a).take 6 ++ pieces 16 2 a := rfl
  refine ⟨_, _, _, _, (words a).take 6, rfl, hwords.trans (congrArg _ ?_), rfl⟩
  rw [pieces_succ, pieces_succ]
  simp only [pieces, List.range_zero, List.map_nil, BitVec.toNat_ushiftRight, Nat.shiftRight_eq_div_pow,
    BitVec.toNat_setWidth, List.cons.injEq, and_true]
  constructor <;> omega

/-- One more word, before the rest of the text. -/
theorem reads_word {c : Char} (before : List ℕ) (hw : w < 2 ^ 16) (hlen : before.length < 8)
    (h : Reads (c :: rest) ⟨before ++ [w], some n, 0, 0⟩ (c :: rest) ws colonp) :
    Reads curtok ⟨before, some n, 0, 0⟩ (Nat.toDigits 16 w ++ ':' :: c :: rest) ws colonp := by
  obtain ⟨k, hk, hword⟩ := scanWords_word curtok before (some n) (':' :: c :: rest) hw
  unfold Reads
  rw [hword, scanWords_colon before hk hlen]
  exact h

theorem exists_cons_dotted (x : BitVec 32) : ∃ c text, dotted x = c :: text := by
  cases htext : dotted x with
  | nil =>
      have hpton := inetPton4_dotted x
      rw [htext] at hpton
      cases hpton
  | cons c text => exact ⟨c, text, rfl⟩

/-! ## The round trip -/

theorem value_words (a : BitVec 128) : BitVec.ofNat 128 (value (2 ^ 16) 0 (words a)) = a := by
  have hvalue := value_pieces 16 (n := 8) (v := 0) a
  rw [Nat.zero_mul, Nat.zero_add, Nat.mod_eq_of_lt (by exact a.isLt)] at hvalue
  rw [words, hvalue, BitVec.ofNat_toNat, BitVec.setWidth_eq]

/-- `::` at the beginning is read from its second colon on. -/
theorem inetPton6_leading {a : BitVec 128} (hwords : words a = List.replicate n 0 ++ back) (hn : 0 < n)
    (hread : Reads text ⟨[], some 0, 0, 0⟩ text back (some 0)) : inetPton6 (':' :: ':' :: text) = some a := by
  have hlen : (words a).length = 8 := length_pieces
  rw [hwords, List.length_append, List.length_replicate] at hlen
  have hscan : Reads (':' :: text) ⟨[], none, 0, 0⟩ (':' :: text) back (some 0) := by
    unfold Reads
    rw [scanWords_colons]
    exact hread
  have hexpand := expand_run (n := n) [] back (by simpa using hlen) hn
  rw [List.nil_append, List.nil_append, ← hwords] at hexpand
  rw [inetPton6, if_pos List.head?_cons, scanAll_of_reads hscan hexpand, value_words]

theorem inetPton6_none {a : BitVec 128} (hbest : bestRun (words a) = none) : inetPton6 (coloned a) = some a := by
  have hlt : ∀ w ∈ words a, w < 2 ^ 16 := fun w hw => lt_of_mem_pieces hw
  have hlen : (words a).length = 8 := length_pieces
  have hdotted : ¬ EndsDotted none (words a) := by simp [EndsDotted]
  obtain ⟨w, ws, hwords⟩ := List.exists_cons_of_length_pos (l := words a) (by omega)
  have htext : coloned a = joined (words a) := by
    rw [coloned]
    simp only [hbest, if_neg hdotted]
    rw [hwords, colonised_none]
  have hread := reads_joined (joined (words a)) [] none hlt (by simp [hlen])
  have hexpand : (⟨words a, none, 0, 0⟩ : Scanned).expand = some (words a) := by
    simp only [Scanned.expand]
    rw [if_pos hlen]
  have hjoined := inetPton6_joined (words a) [] (by simp [hwords])
  rw [List.append_nil] at hjoined
  rw [htext, hjoined, scanAll_of_reads hread hexpand, value_words]

theorem inetPton6_some {a : BitVec 128} (hbest : bestRun (words a) = some run)
    (hdotted : ¬ EndsDotted (some run) (words a)) : inetPton6 (coloned a) = some a := by
  have hlt : ∀ w ∈ words a, w < 2 ^ 16 := fun w hw => lt_of_mem_pieces hw
  have hlen : (words a).length = 8 := length_pieces
  obtain ⟨⟨front, back, hwords, hbase⟩, htwo⟩ := runIn_bestRun hbest
  have hpos : 0 < run.len := by omega
  have hlengths : front.length + run.len + back.length = 8 := by
    rw [hwords] at hlen
    simpa [Nat.add_assoc] using hlen
  have hfront : ∀ w ∈ front, w < 2 ^ 16 := fun w hw => hlt w (by simp [hwords, hw])
  have hback : ∀ w ∈ back, w < 2 ^ 16 := fun w hw => hlt w (by simp [hwords, hw])
  have htext : coloned a = joined front ++ ':' :: ':' :: joined back := by
    rw [coloned]
    simp only [hbest, if_neg hdotted]
    rw [hwords, colonised_some hpos hbase]
  by_cases hnil : front = []
  · rw [hnil] at htext hwords
    rw [htext]
    exact inetPton6_leading hwords hpos (reads_joined _ [] _ hback (by rw [List.length_nil]; omega))
  · have hread := reads_front (joined front ++ ':' :: ':' :: joined back) hfront (by omega) hnil
      (reads_joined (joined back) front (some front.length) hback (by omega))
    have hexpand := expand_run front back hlengths hpos
    rw [← hwords] at hexpand
    rw [htext, inetPton6_joined front _ hnil, scanAll_of_reads hread hexpand, value_words]

theorem inetPton6_endsDotted {a : BitVec 128} (hbest : bestRun (words a) = some run)
    (hdotted : EndsDotted (some run) (words a)) : inetPton6 (coloned a) = some a := by
  obtain ⟨o₁, o₂, o₃, o₄, first, hoctets, hsplit, hfirst⟩ := words_dotted a
  obtain ⟨⟨front, back, hwords, hbase⟩, -⟩ := runIn_bestRun hbest
  have htext : coloned a = colonised (some run) (some (dotted (a.setWidth 32))) 0 (words a) := by
    rw [coloned]
    simp only [hbest, if_pos hdotted]
  rcases hdotted with hrun | ⟨hrun, hword⟩
  · obtain rfl : run = ⟨0, 6⟩ := Option.some.inj hrun
    obtain rfl : front = [] := List.eq_nil_of_length_eq_zero hbase
    rw [List.nil_append] at hwords
    obtain rfl : back = [o₁ * 256 + o₂, o₃ * 256 + o₄] :=
      (List.append_inj (hwords.symm.trans hsplit) (by simp [hfirst])).2
    have hlast : coloned a = ':' :: ':' :: dotted (a.setWidth 32) := by
      rw [htext, hwords]
      exact (colonised_run ⟨0, 6⟩ _ _ (by decide)).trans (by simp [colonised])
    rw [hlast]
    exact inetPton6_leading hwords (by decide) (reads_dotted _ [] _ hoctets (by simp))
  · obtain rfl : run = ⟨0, 5⟩ := Option.some.inj hrun
    obtain rfl : front = [] := List.eq_nil_of_length_eq_zero hbase
    rw [List.nil_append] at hwords
    obtain ⟨w, back, rfl⟩ : ∃ w back', back = w :: back' := by
      cases back with
      | nil => simp [hwords] at hword
      | cons w back => exact ⟨w, back, rfl⟩
    obtain rfl : w = 0xffff := by simpa [hwords] using hword
    obtain rfl : back = [o₁ * 256 + o₂, o₃ * 256 + o₄] := by
      have happend : (List.replicate 5 0 ++ [0xffff]) ++ back =
          first ++ [o₁ * 256 + o₂, o₃ * 256 + o₄] := by
        rw [← hsplit, hwords, List.append_assoc]
        rfl
      exact (List.append_inj happend (by simp [hfirst])).2
    have hlast : coloned a =
        ':' :: ':' :: (Nat.toDigits 16 0xffff ++ ':' :: dotted (a.setWidth 32)) := by
      rw [htext, hwords]
      exact (colonised_run ⟨0, 5⟩ _ _ (by decide)).trans (by simp [colonised])
    obtain ⟨c, text, hdots⟩ := exists_cons_dotted (a.setWidth 32)
    have hread := reads_dotted _ [0xffff] (some 0) hoctets (by simp)
    rw [hlast, hdots]
    rw [hdots] at hread
    exact inetPton6_leading hwords (by decide) (reads_word [] (by decide) (by simp) hread)

/-- Every IPv6 address is read as it was written. -/
theorem inetPton6_coloned (a : BitVec 128) : inetPton6 (coloned a) = some a := by
  cases hbest : bestRun (words a) with
  | none => exact inetPton6_none hbest
  | some run =>
      by_cases hdotted : EndsDotted (some run) (words a)
      · exact inetPton6_endsDotted hbest hdotted
      · exact inetPton6_some hbest hdotted

end SocketWrapper.Endpoints
