import Rocom.Lib.Buffer
import Rocom.Wilma.AccessPoint
import Rocom.Wilma.JsonPages
import Rocom.Wilma.Murmur
import Rocom.Wilma.WordList

/-! The names a device gives itself: `wilma_unique_words` and `wilma_update_wifi_ssid` of
components/wilma/utils.c, and the host name of main/mdns.c. -/
namespace Rocom.Wilma

open CString Mixing

theorem low_ten_bits (x : BitVec 32) : (x &&& 0x3ff).toNat = x.toNat % 1024 := by
  rw [BitVec.toNat_and]
  exact Nat.and_two_pow_sub_one_eq_mod x.toNat 10

/-- A number of ten bits is an index of the list. -/
def wordIndex (x : BitVec 32) : Fin 1024 :=
  ⟨(x &&& 0x3ff).toNat, by rw [low_ten_bits]; exact Nat.mod_lt _ (by decide)⟩

/-- The first six bytes of `chip_id` are the MAC address. -/
def chipIdx (chipId : List UInt8) : BitVec 32 := murmurHash3X86_32 (chipId.take 6) 0

def wilmaUniqueWords (chipId : List UInt8) : Str × Str :=
  (wordList.word (wordIndex (chipIdx chipId)), wordList.word (wordIndex (chipIdx chipId >>> 10)))

/-- `CONFIG_WILMA_AP_SSID_PREFIX`, which also names the product. -/
def ssidPrefix : List UInt8 := ascii "Rocom"

def ssidText (names : Str × Str) : List UInt8 :=
  ssidPrefix ++ ascii " (" ++ names.1.chars ++ ascii " " ++ names.2.chars ++ ascii ")"

def wilmaUpdateWifiSsid (chipId : List UInt8) : Field 32 × Nat :=
  let formatted := ssidText (wilmaUniqueWords chipId)
  (pad 32 (snprintf (List.replicate 32 0) 32 formatted), formatted.length)

def hostnameText (names : Str × Str) : List UInt8 :=
  ssidPrefix ++ ascii "-" ++ names.1.chars ++ ascii "-" ++ names.2.chars

/-- The host name that `initialise_mdns` sets; `stack` is what its array held. -/
def initialiseMdns (chipId stack : List UInt8) (hostname : Option Str) : List UInt8 :=
  match hostname with
  | none => text (snprintf stack 31 (hostnameText (wilmaUniqueWords chipId)))
  | some hostname => hostname.chars

/-- What the manager takes for the access point where nothing is stored. -/
def defaultAp (chipId : List UInt8) (password : Str) : ApDefaults :=
  let (ssid, ssidLen) := wilmaUpdateWifiSsid chipId
  ⟨ssid, UInt8.ofNat ssidLen, password⟩

/-! ### Both names fit -/

theorem ssidText_fits (i j : Fin 1024) :
    (ssidText (wordList.word i, wordList.word j)).length ≤ 29 := by
  have first := wordList.short i
  have second := wordList.short j
  have fixed : ssidPrefix.length = 5 ∧ (ascii " (").length = 2 ∧ (ascii " ").length = 1 ∧
      (ascii ")").length = 1 := by decide
  simp only [ssidText, List.length_append, Str.strlen] at *
  omega

theorem hostnameText_fits (i j : Fin 1024) :
    (hostnameText (wordList.word i, wordList.word j)).length ≤ 27 := by
  have first := wordList.short i
  have second := wordList.short j
  have fixed : ssidPrefix.length = 5 ∧ (ascii "-").length = 1 := by decide
  simp only [hostnameText, List.length_append, Str.strlen] at *
  omega

theorem text_ssidText (names : Str × Str) : text (ssidText names) = ssidText names := by
  apply text_of_notMem
  simp only [ssidText, List.mem_append, names.1.noNul, names.2.noNul, or_false]
  decide

theorem text_hostnameText (names : Str × Str) : text (hostnameText names) = hostnameText names := by
  apply text_of_notMem
  simp only [hostnameText, List.mem_append, names.1.noNul, names.2.noNul, or_false]
  decide

/-- The default SSID is not cut, and its length is the one that is returned. -/
theorem updateWifiSsid_text (chipId : List UInt8) :
    text (wilmaUpdateWifiSsid chipId).1.bytes = ssidText (wilmaUniqueWords chipId) ∧
      (wilmaUpdateWifiSsid chipId).2 = (ssidText (wilmaUniqueWords chipId)).length := by
  have fits := ssidText_fits (wordIndex (chipIdx chipId)) (wordIndex (chipIdx chipId >>> 10))
  refine ⟨?_, rfl⟩
  show text (pad 32 (snprintf (List.replicate 32 0) 32 (ssidText (wilmaUniqueWords chipId)))).bytes =
    ssidText (wilmaUniqueWords chipId)
  have whole : (ssidText (wilmaUniqueWords chipId)).length < 32 :=
    Nat.lt_of_le_of_lt fits (by decide)
  rw [text_pad, text_snprintf _ whole, text_ssidText, List.take_of_length_le (Nat.le_of_lt whole)]

theorem initialiseMdns_text (chipId stack : List UInt8) :
    initialiseMdns chipId stack none = hostnameText (wilmaUniqueWords chipId) := by
  have fits := hostnameText_fits (wordIndex (chipIdx chipId)) (wordIndex (chipIdx chipId >>> 10))
  have whole : (hostnameText (wilmaUniqueWords chipId)).length < 31 :=
    Nat.lt_of_le_of_lt fits (by decide)
  rw [initialiseMdns, text_snprintf _ whole, text_hostnameText]

/-! ### Who shares a name -/

/-- Two texts in front of a separator that neither of them holds. -/
theorem split_inj {sep : UInt8} {a a' b b' : List UInt8} (free : sep ∉ a) (free' : sep ∉ a')
    (same : a ++ sep :: b = a' ++ sep :: b') : a = a' ∧ b = b' := by
  induction a generalizing a' with
  | nil =>
    cases a' with
    | nil => exact ⟨rfl, (List.cons.inj same).2⟩
    | cons c a' => exact absurd ((List.cons.inj same).1 ▸ List.mem_cons_self) free'
  | cons c a ih =>
    cases a' with
    | nil => exact absurd ((List.cons.inj same).1 ▸ List.mem_cons_self) free
    | cons d a' =>
      obtain ⟨rfl, rest⟩ := List.cons.inj same
      obtain ⟨rfl, tails⟩ := ih (fun mem => free (List.mem_cons_of_mem _ mem))
        (fun mem => free' (List.mem_cons_of_mem _ mem)) rest
      exact ⟨rfl, tails⟩

theorem chars_inj {s t : Str} (same : s.chars = t.chars) : s = t := by
  cases s
  cases t
  cases same
  rfl

theorem words_eq_iff (i j k l : Fin 1024) :
    (wordList.word i, wordList.word j) = (wordList.word k, wordList.word l) ↔ i = k ∧ j = l := by
  rw [Prod.mk.injEq, wordList.distinct.eq_iff, wordList.distinct.eq_iff]

theorem ssidText_inj {i j k l : Fin 1024}
    (same : ssidText (wordList.word i, wordList.word j) =
      ssidText (wordList.word k, wordList.word l)) : i = k ∧ j = l := by
  have blank : ascii " " = [0x20] := by decide
  simp only [ssidText, blank, List.append_assoc, List.append_cancel_left_eq, List.singleton_append]
    at same
  obtain ⟨first, rest⟩ :=
    split_inj (wordList.lacks (by decide) i) (wordList.lacks (by decide) k) same
  have second := List.append_cancel_right rest
  exact ⟨wordList.distinct (chars_inj first), wordList.distinct (chars_inj second)⟩

theorem hostnameText_inj {i j k l : Fin 1024}
    (same : hostnameText (wordList.word i, wordList.word j) =
      hostnameText (wordList.word k, wordList.word l)) : i = k ∧ j = l := by
  have dash : ascii "-" = [0x2d] := by decide
  simp only [hostnameText, dash, List.append_assoc, List.append_cancel_left_eq,
    List.cons_append, List.nil_append, List.cons.injEq, true_and] at same
  obtain ⟨first, second⟩ :=
    split_inj (wordList.lacks (by decide) i) (wordList.lacks (by decide) k) same
  exact ⟨wordList.distinct (chars_inj first), wordList.distinct (chars_inj second)⟩

/-- The low twenty bits of a hash are its two indices. -/
theorem indices_iff (x : BitVec 32) (i j : Fin 1024) :
    wordIndex x = i ∧ wordIndex (x >>> 10) = j ↔
      x.setWidth 20 = BitVec.ofNat 20 (j * 1024 + i) := by
  have low : (wordIndex x).val = x.toNat % 1024 := low_ten_bits x
  have high : (wordIndex (x >>> 10)).val = x.toNat / 1024 % 1024 :=
    (low_ten_bits (x >>> 10)).trans
      (by rw [BitVec.toNat_ushiftRight, Nat.shiftRight_eq_div_pow])
  have bounds := And.intro i.isLt j.isLt
  rw [Fin.ext_iff, Fin.ext_iff, low, high, ← BitVec.toNat_inj, BitVec.toNat_setWidth,
    BitVec.toNat_ofNat]
  omega

/-- Four bytes as they lie in memory. -/
def wordBytes (x : BitVec 32) : List UInt8 :=
  [⟨x.extractLsb' 0 8⟩, ⟨x.extractLsb' 8 8⟩, ⟨x.extractLsb' 16 8⟩, ⟨x.extractLsb' 24 8⟩]

theorem wordBytes_injective : Function.Injective wordBytes := by
  intro x y same
  simp only [wordBytes, List.cons.injEq, UInt8.ofBitVec.injEq, and_true] at same
  obtain ⟨first, second, third, fourth⟩ := same
  apply BitVec.eq_of_toNat_eq
  have numbers := And.intro (congrArg BitVec.toNat first) (And.intro (congrArg BitVec.toNat second)
    (And.intro (congrArg BitVec.toNat third) (congrArg BitVec.toNat fourth)))
  simp only [BitVec.extractLsb'_toNat, Nat.shiftRight_eq_div_pow] at numbers
  have := x.isLt
  have := y.isLt
  omega

/-- Both indices are the same. -/
def Same (chipId chipId' : List UInt8) : Prop :=
  wordIndex (chipIdx chipId) = wordIndex (chipIdx chipId') ∧
    wordIndex (chipIdx chipId >>> 10) = wordIndex (chipIdx chipId' >>> 10)

/-- The default access point has its whole name and the length of it. Two devices share one of
their default names exactly if they share the other, and that is if their hashes agree in twenty
bits; and among the devices whose addresses end in the same two bytes each of the 2 ^ 20 names is
given to exactly 2 ^ 12 of the 2 ^ 32. -/
theorem default_names :
    (∀ chipId password,
      text (defaultAp chipId password).ssid.bytes = ssidText (wilmaUniqueWords chipId) ∧
        (defaultAp chipId password).ssidLen.toNat =
          (text (defaultAp chipId password).ssid.bytes).length) ∧
    (∀ chipId chipId' stack stack' : List UInt8,
      ((wilmaUpdateWifiSsid chipId).1 = (wilmaUpdateWifiSsid chipId').1 ↔
          initialiseMdns chipId stack none = initialiseMdns chipId' stack' none) ∧
        ((wilmaUpdateWifiSsid chipId).1 = (wilmaUpdateWifiSsid chipId').1 ↔
          (chipIdx chipId).setWidth 20 = (chipIdx chipId').setWidth 20)) ∧
      ∀ (b₄ b₅ : UInt8) (i j : Fin 1024),
        Nat.card { x : BitVec 32 //
          wilmaUniqueWords (wordBytes x ++ [b₄, b₅]) = (wordList.word i, wordList.word j) } =
          2 ^ 12 := by
  refine ⟨?_, ?_, ?_⟩
  · intro chipId password
    obtain ⟨whole, length⟩ := updateWifiSsid_text chipId
    have fits := ssidText_fits (wordIndex (chipIdx chipId)) (wordIndex (chipIdx chipId >>> 10))
    have byte : (ssidText (wilmaUniqueWords chipId)).length < 2 ^ 8 :=
      Nat.lt_of_le_of_lt fits (by decide)
    refine ⟨whole, ?_⟩
    show (UInt8.ofNat (wilmaUpdateWifiSsid chipId).2).toNat =
      (text (wilmaUpdateWifiSsid chipId).1.bytes).length
    rw [whole, length, UInt8.toNat_ofNat', Nat.mod_eq_of_lt byte]
  · intro chipId chipId' stack stack'
    have ssids : (wilmaUpdateWifiSsid chipId).1 = (wilmaUpdateWifiSsid chipId').1 ↔
        Same chipId chipId' := by
      constructor
      · intro same
        have texts := congrArg (fun f : Field 32 => text f.bytes) same
        simp only [(updateWifiSsid_text _).1] at texts
        exact ssidText_inj texts
      · intro same
        have names := (words_eq_iff _ _ _ _).mpr same
        exact congrArg
          (fun names => pad 32 (snprintf (List.replicate 32 0) 32 (ssidText names))) names
    have hosts : initialiseMdns chipId stack none = initialiseMdns chipId' stack' none ↔
        Same chipId chipId' := by
      rw [initialiseMdns_text, initialiseMdns_text]
      constructor
      · exact hostnameText_inj
      · exact fun same => congrArg hostnameText ((words_eq_iff _ _ _ _).mpr same)
    have low := (indices_iff (chipIdx chipId') _ _).mp ⟨rfl, rfl⟩
    have agree := indices_iff (chipIdx chipId) (wordIndex (chipIdx chipId'))
      (wordIndex (chipIdx chipId' >>> 10))
    rw [← low] at agree
    exact ⟨ssids.trans hosts.symm, ssids.trans agree⟩
  · intro b₄ b₅ i j
    have injective : Function.Injective fun x : BitVec (12 + 20) =>
        murmurHash3X86_32 (wordBytes x ++ [b₄, b₅]) 0 := by
      intro x y same
      exact wordBytes_injective ((murmur_block_iff 0 [] rfl rfl rfl [b₄, b₅]).mp same)
    rw [← card_low_bits injective (BitVec.ofNat 20 (j * 1024 + i))]
    refine Nat.card_congr (Equiv.subtypeEquivRight fun x => ?_)
    exact (words_eq_iff _ _ _ _).trans (indices_iff _ _ _)

example : ssidText (wilmaUniqueWords [0x24, 0x6f, 0x28, 0x01, 0x02, 0x03]) =
    ascii "Rocom (milk left)" := by decide +kernel

end Rocom.Wilma
