import SocketWrapper.Endpoints.Lemmas.Coloned
import SocketWrapper.Endpoints.Operations

/-!
# The texts of the interfaces
-/

namespace SocketWrapper.Endpoints

open Numerals Descriptors Interfaces

variable {b i n : ℕ} {c sep : Char} {ws : List ℕ} {texts : List (List Char)} {best : Option ZeroRun}
  {lastTwo : Option (List Char)} {version : IpVersion} {found interfaces : List NetworkInterface}
  {ifAddresses : List IfAddrs} {interface : NetworkInterface} {a : SockAddr}

/-! ## No text ends early -/

theorem ne_nul_of_mem_toDigits (hb : 1 < b) (hle : b ≤ 16) (hc : c ∈ Nat.toDigits b n) : c ≠ '\x00' := by
  obtain ⟨digits, htext, hwrites⟩ := exists_writes hb n
  rw [htext] at hc
  obtain ⟨d, hd, rfl⟩ := List.mem_map.mp hc
  have hvalue := hexDigitValue_digitChar ((hwrites.lt d hd).trans_le hle)
  intro heq
  rw [heq] at hvalue
  cases hvalue

theorem mem_intercalate (hc : c ∈ [sep].intercalate texts) : c = sep ∨ ∃ text ∈ texts, c ∈ text := by
  induction texts with
  | nil => simp at hc
  | cons text texts ih =>
      cases texts with
      | nil => exact .inr ⟨text, by simp, by simpa using hc⟩
      | cons next rest =>
          rw [List.intercalate_cons_cons, List.append_assoc] at hc
          rcases List.mem_append.mp hc with hfirst | hrest
          · exact .inr ⟨text, by simp, hfirst⟩
          · rcases List.mem_append.mp hrest with hsep | hlater
            · exact .inl (List.mem_singleton.mp hsep)
            · rcases ih hlater with heq | ⟨t, ht, hct⟩
              · exact .inl heq
              · exact .inr ⟨t, List.mem_cons_of_mem _ ht, hct⟩

theorem ne_nul_of_mem_dotted {x : BitVec 32} (hc : c ∈ dotted x) : c ≠ '\x00' := by
  rcases mem_intercalate hc with rfl | ⟨text, htext, hct⟩
  · decide
  · obtain ⟨o, -, rfl⟩ := List.mem_map.mp htext
    exact ne_nul_of_mem_toDigits (by decide) (by decide) hct

theorem ne_nul_of_mem_colonised (hlast : ∀ text, lastTwo = some text → ∀ c ∈ text, c ≠ '\x00')
    (hc : c ∈ colonised best lastTwo i ws) : c ≠ '\x00' := by
  induction ws generalizing i with
  | nil =>
      unfold colonised at hc
      split at hc
      · obtain rfl := List.mem_singleton.mp hc
        decide
      · cases hc
  | cons w ws ih =>
      have hcolon : ∀ p : Prop, [Decidable p] → c ∈ (if p then [':'] else []) → c ≠ '\x00' := by
        intro p _ hmem
        split at hmem
        · obtain rfl := List.mem_singleton.mp hmem
          decide
        · cases hmem
      have hcolon' : ∀ p : Prop, [Decidable p] → c ∈ (if p then [] else [':']) → c ≠ '\x00' := by
        intro p _ hmem
        split at hmem
        · cases hmem
        · obtain rfl := List.mem_singleton.mp hmem
          decide
      unfold colonised at hc
      split at hc
      · rcases List.mem_append.mp hc with hmem | hmem
        · exact hcolon _ hmem
        · exact ih hmem
      · rcases List.mem_append.mp hc with hmem | hmem
        · exact hcolon' _ hmem
        · cases hword : if i = 6 then lastTwo else none with
          | some text =>
              rw [hword, Option.getD_some] at hmem
              exact hlast text (Option.ite_none_right_eq_some.mp hword).2 c hmem
          | none =>
              rw [hword, Option.getD_none] at hmem
              rcases List.mem_append.mp hmem with hdigit | hrest
              · exact ne_nul_of_mem_toDigits (by decide) (by decide) hdigit
              · exact ih hrest

theorem ne_nul_of_mem_coloned {x : BitVec 128} (hc : c ∈ coloned x) : c ≠ '\x00' := by
  refine ne_nul_of_mem_colonised (fun text htext c hc => ?_) hc
  split at htext
  · cases htext
    exact ne_nul_of_mem_dotted hc
  · cases htext

theorem cStr_ofList {text : List Char} (h : ∀ c ∈ text, c ≠ '\x00') : cStr (.ofList text) = text := by
  rw [cStr, String.toList_ofList]
  exact List.takeWhile_eq_self_iff.mpr (by simpa using h)

theorem inetAddr_dotted (x : BitVec 32) : inetAddr (.ofList (dotted x)) = x := by
  rw [inetAddr, cStr_ofList fun _ => ne_nul_of_mem_dotted, inetAton_dotted]
  rfl

theorem inetPton6_text (x : BitVec 128) : inetPton6 (cStr (.ofList (coloned x))) = some x := by
  rw [cStr_ofList fun _ => ne_nul_of_mem_coloned, inetPton6_coloned]

/-! ## The interfaces -/

theorem mem_findInterfaces (h : findInterfaces version found ifAddresses = .ok interfaces)
    (hi : interface ∈ interfaces) :
    interface ∈ found ∨ ∃ it ∈ ifAddresses, (∃ a, it.ifaAddr = some a ∧ a.saFamily = family version) ∧
      foundInterface it = .ok interface := by
  induction ifAddresses generalizing found with
  | nil =>
      cases h
      exact .inl hi
  | cons it next ih =>
      unfold findInterfaces at h
      split at h
      · rename_i hfamily
        cases hit : foundInterface it with
        | error e =>
            rw [hit] at h
            cases h
        | ok new =>
            rw [hit] at h
            rcases ih h with hmem | ⟨it', hit', hrest⟩
            · rcases List.mem_append.mp hmem with hold | hnew
              · exact .inl hold
              · obtain rfl := List.mem_singleton.mp hnew
                obtain ⟨a, ha, hfam⟩ := (Option.any_eq_true _ _).mp hfamily
                exact .inr ⟨it, List.mem_cons_self, ⟨a, ha, by simpa using hfam⟩, hit⟩
            · exact .inr ⟨it', List.mem_cons_of_mem _ hit', hrest⟩
      · rcases ih h with hold | ⟨it', hit', hrest⟩
        · exact .inl hold
        · exact .inr ⟨it', List.mem_cons_of_mem _ hit', hrest⟩

theorem foundInterface_ok {it : IfAddrs} (h : foundInterface it = .ok interface) :
    interface.name = it.ifaName ∧ getIpAddressOf it.ifaAddr = .ok interface.ipAddress := by
  unfold foundInterface at h
  cases hip : getIpAddressOf it.ifaAddr with
  | error e => simp [hip, bind, Except.bind] at h
  | ok ip =>
      cases hmask : getIpAddressOf it.ifaNetmask with
      | error e => simp [hip, hmask, bind, Except.bind] at h
      | ok mask =>
          cases hbroad : getIpAddressOf it.ifaBroadaddr with
          | error e => simp [hip, hmask, hbroad, bind, Except.bind] at h
          | ok broadcast =>
              simp only [hip, hmask, hbroad, bind, Except.bind, pure, Except.pure, Except.ok.injEq] at h
              subst h
              exact ⟨rfl, rfl⟩

/-! ## What the functions make of them -/

theorem headD_octets (x : BitVec 32) : (octets x).headD 0 = x.toNat / 2 ^ 24 := by
  have hlt := x.isLt
  rw [octets, pieces_succ, List.headD_cons]
  omega

/-- 224.0.0.0 to 239.255.255.255. -/
theorem class_iff (x : BitVec 32) : (inetAddr "224.0.0.0" ≤ x ∧ x < inetAddr "240.0.0.0") ↔
    224 ≤ (octets x).headD 0 ∧ (octets x).headD 0 < 240 := by
  have hlow : inetAddr "224.0.0.0" = 0xe0000000 := by decide +kernel
  have hhigh : inetAddr "240.0.0.0" = 0xf0000000 := by decide +kernel
  have hlowest : (0xe0000000 : BitVec 32).toNat = 0xe0000000 := rfl
  have hnext : (0xf0000000 : BitVec 32).toNat = 0xf0000000 := rfl
  rw [hlow, hhigh, headD_octets, BitVec.le_def, BitVec.lt_def, hlowest, hnext]
  omega

theorem denotes_of_server {text : String} (hserver : ∀ port, serverAddr text port version = ⟨a, port.toNat⟩)
    (haddr : version = .IPv4 → inetAddr text = a.sinAddr ∧ a = .inet a.sinAddr) : Denotes version text a where
  connects := by
    intro kernel port fd h
    simp only [createTcpStreamToServer, hserver] at h ⊢
    split at h
    · cases h
    · split at h
      · cases h
      · cases h
        simp
  connectsNowhereElse := by
    intro kernel port fd server h
    simp only [createTcpStreamToServer, hserver] at h
    have hcall : ∀ fd', AddressCall.connect fd server ∈
        ([.socket (family version)] ++ [.connect fd' ⟨a, port.toNat⟩] : List AddressCall) →
          server = ⟨a, port.toNat⟩ := by
      intro fd' hmem
      have hboth : fd = fd' ∧ server = ⟨a, port.toNat⟩ := by simpa using hmem
      exact hboth.2
    split at h
    · simp at h
    · split at h
      · exact hcall _ h
      · exact hcall _ h
  binds := by
    rintro rfl kernel port fd h
    obtain ⟨htext, ha⟩ := haddr rfl
    have hreceiver : receiverAddress text port .IPv4 = ⟨a, port.toNat⟩ := by rw [receiverAddress, htext, ← ha]
    simp only [bindDatagram, hreceiver] at h ⊢
    split at h
    · cases h
    · split at h
      · cases h
      · cases h
        simp
  sends := by
    rintro rfl kernel fd msgData port
    obtain ⟨htext, ha⟩ := haddr rfl
    simp only [writeDatagram, htext, ← ha]
    split <;> rfl
  joins := by
    rintro rfl hclass kernel fd
    obtain ⟨htext, -⟩ := haddr rfl
    simp only [subscribeToMulticast, htext]
    rw [if_pos ((class_iff _).mpr hclass)]
    split <;> rfl
  refuses := by
    rintro rfl hclass kernel fd
    obtain ⟨htext, -⟩ := haddr rfl
    simp only [subscribeToMulticast, htext]
    rw [if_neg fun h => hclass ((class_iff _).mp h)]
    exact ⟨rfl, Outcome.threwType_socket.mpr rfl⟩

/-- The text of an address denotes it. -/
theorem denotes_text {text : String} (hfamily : a.saFamily = family version)
    (htext : getIpAddressOf (some a) = .ok text) : Denotes version text (meant version a) := by
  cases version with
  | IPv4 =>
      have hread : text = .ofList (dotted a.sinAddr) := by
        simp only [getIpAddressOf, hfamily, family, AF_INET, AF_INET6, getIpV4AddressOf, inetNtop4_eq,
          Option.getD_some] at htext
        simpa using htext.symm
      have haddr : inetAddr text = a.sinAddr := by rw [hread, inetAddr_dotted]
      refine denotes_of_server (fun port => ?_) fun _ => ⟨haddr, rfl⟩
      rw [serverAddr, haddr]
      rfl
  | IPv6 =>
      have hread : text = .ofList (coloned a.sin6Addr) := by
        simp only [getIpAddressOf, hfamily, family, getIpV6AddressOf, inetNtop6_eq, Option.getD_some,
          ↓reduceIte] at htext
        simpa using htext.symm
      refine denotes_of_server (fun port => ?_) (by simp)
      rw [serverAddr, hread, inetPton6_text]
      rfl

end SocketWrapper.Endpoints
