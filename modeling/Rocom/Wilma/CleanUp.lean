import Mathlib.Data.Finset.Card
import Mathlib.Data.List.Sort
import Rocom.Wilma.Manager

/-! What `ap_filter_sort_unique` leaves of a scan: each network once, with its strongest signal,
the strongest first. -/
namespace Rocom.Wilma

open CString

/-- A network: its SSID, as a string, and its authentication mode. -/
abbrev Network := List UInt8 × UInt8

def ApRecord.network (r : ApRecord) : Network := (text r.ssid.bytes, r.authmode)

/-- The records with a non-empty SSID. -/
def named (list : List ApRecord) : List ApRecord := list.filter fun r => !r.nameless

/-- The first record of a network, with the strongest signal of all of them. -/
structure Merged (list : List ApRecord) (s : ApRecord) : Prop where
  first : ∃ first, list.find? (·.network = s.network) = some first ∧
    s = { first with rssi := s.rssi }
  reached : ∃ r ∈ list, r.network = s.network ∧ r.rssi = s.rssi
  strongest : ∀ r ∈ list, r.network = s.network → r.rssi ≤ s.rssi

/-- Each named network of the list once. -/
structure OnceEach (list out : List ApRecord) : Prop where
  networks : ∀ k, k ∈ out.map ApRecord.network ↔ k ∈ (named list).map ApRecord.network
  once : (out.map ApRecord.network).Nodup
  merged : ∀ s ∈ out, Merged list s

theorem nameless_iff (r : ApRecord) : r.nameless = true ↔ r.network.1 = [] := by
  unfold ApRecord.nameless ApRecord.network
  rw [decide_eq_true_iff, text_eq]
  split <;> simp_all

theorem identical_iff (a b : ApRecord) : identical a b = true ↔ a.network = b.network := by
  rw [identical, Bool.and_eq_true, decide_eq_true_iff, decide_eq_true_iff, strcmp_eq_zero_iff,
    ApRecord.network, ApRecord.network, Prod.mk.injEq]

@[simp] theorem named_nil : named [] = [] := rfl

theorem named_cons_nameless {r : ApRecord} (h : r.nameless = true) (list : List ApRecord) :
    named (r :: list) = named list := by simp [named, h]

theorem named_cons {r : ApRecord} (h : r.nameless = false) (list : List ApRecord) :
    named (r :: list) = r :: named list := by simp [named, h]

theorem mem_named {list : List ApRecord} {r : ApRecord} :
    r ∈ named list ↔ r ∈ list ∧ r.network.1 ≠ [] := by
  rw [named, List.mem_filter, Bool.not_eq_true', ← Bool.not_eq_true, nameless_iff]

/-! ### Duplicates -/

/-- A signal and the stronger one of a further record. -/
def stronger (rssi : Int8) (r : ApRecord) : Int8 := if rssi < r.rssi then r.rssi else rssi

def strongestOf (rssi : Int8) (list : List ApRecord) : Int8 := list.foldl stronger rssi

theorem le_stronger (rssi : Int8) (r : ApRecord) :
    rssi ≤ stronger rssi r ∧ r.rssi ≤ stronger rssi r := by
  unfold stronger
  split
  · rename_i weaker
    exact ⟨Int8.le_of_lt weaker, Int8.le_refl _⟩
  · rename_i stronger
    exact ⟨Int8.le_refl _, Int8.not_lt.mp stronger⟩

theorem le_strongestOf (rssi : Int8) (list : List ApRecord) :
    rssi ≤ strongestOf rssi list ∧ ∀ r ∈ list, r.rssi ≤ strongestOf rssi list := by
  induction list generalizing rssi with
  | nil => exact ⟨Int8.le_refl _, fun r h => absurd h List.not_mem_nil⟩
  | cons a list ih =>
    obtain ⟨base, each⟩ := ih (stronger rssi a)
    obtain ⟨old, new⟩ := le_stronger rssi a
    refine ⟨Int8.le_trans old base, ?_⟩
    intro r h
    rcases List.mem_cons.mp h with rfl | h
    · exact Int8.le_trans new base
    · exact each r h

theorem strongestOf_reached (rssi : Int8) (list : List ApRecord) :
    strongestOf rssi list = rssi ∨ ∃ r ∈ list, r.rssi = strongestOf rssi list := by
  induction list generalizing rssi with
  | nil => exact .inl rfl
  | cons a list ih =>
    rcases ih (stronger rssi a) with base | ⟨r, h, reached⟩
    · have step : stronger rssi a = rssi ∨ a.rssi = stronger rssi a := by
        unfold stronger
        split
        · exact .inr rfl
        · exact .inl rfl
      rcases step with kept | louder
      · exact .inl (base.trans kept)
      · exact .inr ⟨a, List.mem_cons_self, louder.trans base.symm⟩
    · exact .inr ⟨r, List.mem_cons_of_mem a h, reached⟩

def cleared (ap r : ApRecord) : ApRecord := if identical ap r then .zero else r

theorem absorb_eq (ap : ApRecord) (list : List ApRecord) :
    absorb ap list = ({ ap with rssi := strongestOf ap.rssi (list.filter (identical ap)) },
      list.map (cleared ap)) := by
  induction list generalizing ap with
  | nil => rfl
  | cons r list ih =>
    cases same : identical ap r with
    | true =>
      have louder : (if ap.rssi < r.rssi then { ap with rssi := r.rssi } else ap) =
          { ap with rssi := stronger ap.rssi r } := by
        unfold stronger
        split <;> rfl
      simp only [absorb, same, if_true, louder, ih, List.filter_cons, List.map_cons, cleared]
      rfl
    | false =>
      simp [absorb, same, ih, cleared]

theorem zero_nameless : ApRecord.zero.nameless = true := by decide

/-- What is left behind a record that has absorbed its duplicates. -/
theorem named_cleared (ap : ApRecord) (list : List ApRecord) :
    named (list.map (cleared ap)) = (named list).filter (·.network ≠ ap.network) := by
  induction list with
  | nil => rfl
  | cons r list ih =>
    cases same : identical ap r with
    | true =>
      have network : r.network = ap.network := ((identical_iff ap r).mp same).symm
      rw [List.map_cons, cleared, same, if_pos rfl, named_cons_nameless zero_nameless, ih]
      cases hidden : r.nameless with
      | true => rw [named_cons_nameless hidden]
      | false => simp [named_cons hidden, network]
    | false =>
      have network : r.network ≠ ap.network := by
        intro eq
        rw [(identical_iff ap r).mpr eq.symm] at same
        cases same
      rw [List.map_cons, cleared, same, if_neg Bool.false_ne_true]
      cases hidden : r.nameless with
      | true => rw [named_cons_nameless hidden, named_cons_nameless hidden, ih]
      | false => simp [named_cons hidden, network, ih]

section Merge
variable {ap s : ApRecord} {list out : List ApRecord}

theorem Merged.cons_other (h : Merged list s) (other : ap.network ≠ s.network) :
    Merged (ap :: list) s := by
  obtain ⟨⟨first, found, same⟩, ⟨r, hr, network, reached⟩, strongest⟩ := h
  refine ⟨⟨first, ?_, same⟩, ⟨r, List.mem_cons_of_mem ap hr, network, reached⟩, ?_⟩
  · rw [List.find?_cons_of_neg (by simpa using other)]
    exact found
  · intro r hr network
    rcases List.mem_cons.mp hr with rfl | hr
    · exact absurd network other
    · exact strongest r hr network

theorem network_cleared {k : Network} (other : k ≠ ap.network) (nonempty : k.1 ≠ [])
    (r : ApRecord) : (cleared ap r).network = k ↔ r.network = k := by
  unfold cleared
  split
  · rename_i same
    have network := (identical_iff ap r).mp same
    have hidden : ApRecord.zero.network ≠ k := by
      rintro rfl
      exact nonempty ((nameless_iff _).mp zero_nameless)
    exact iff_of_false hidden fun eq => other (eq.symm.trans network.symm)
  · rfl

/-- The cleared records are of no account for the other networks. -/
theorem Merged.of_cleared (h : Merged (list.map (cleared ap)) s) (other : s.network ≠ ap.network)
    (nonempty : s.network.1 ≠ []) : Merged list s := by
  have same_network := network_cleared other nonempty
  have kept : ∀ r, r.network = s.network → cleared ap r = r := by
    intro r network
    unfold cleared
    rw [if_neg]
    intro same
    exact other (network.symm.trans ((identical_iff ap r).mp same).symm)
  obtain ⟨⟨first, found, same⟩, ⟨r, hr, network, reached⟩, strongest⟩ := h
  refine ⟨⟨first, ?_, same⟩, ?_, ?_⟩
  · have looks_same : (fun r : ApRecord => decide (r.network = s.network)) ∘ cleared ap =
        fun r => decide (r.network = s.network) :=
      funext fun r => decide_eq_decide.mpr (same_network r)
    rw [List.find?_map, looks_same] at found
    obtain ⟨r, found', rfl⟩ := Option.map_eq_some_iff.mp found
    rw [found', kept r (by simpa using List.find?_some found')]
  · obtain ⟨r', hr', rfl⟩ := List.mem_map.mp hr
    have network' := (same_network r').mp network
    rw [kept r' network'] at reached
    exact ⟨r', hr', network', reached⟩
  · intro r hr network
    have seen := strongest (cleared ap r) (List.mem_map_of_mem hr) ((same_network r).mpr network)
    rwa [kept r network] at seen

/-- A record that has absorbed its duplicates. -/
theorem Merged.head (ap : ApRecord) (list : List ApRecord) :
    Merged (ap :: list) { ap with rssi := strongestOf ap.rssi (list.filter (identical ap)) } := by
  obtain ⟨base, each⟩ := le_strongestOf ap.rssi (list.filter (identical ap))
  refine ⟨⟨ap, List.find?_cons_of_pos (by simp [ApRecord.network]), rfl⟩, ?_, ?_⟩
  · rcases strongestOf_reached ap.rssi (list.filter (identical ap)) with own | ⟨r, hr, reached⟩
    · exact ⟨ap, List.mem_cons_self, rfl, own.symm⟩
    · obtain ⟨held, same⟩ := List.mem_filter.mp hr
      exact ⟨r, List.mem_cons_of_mem ap held, ((identical_iff ap r).mp same).symm, reached⟩
  · intro r hr network
    rcases List.mem_cons.mp hr with rfl | held
    · exact base
    · exact each r (List.mem_filter.mpr ⟨held, (identical_iff ap r).mpr network.symm⟩)

theorem OnceEach.nonempty (h : OnceEach list out) (hs : s ∈ out) : s.network.1 ≠ [] := by
  obtain ⟨r, hr, network⟩ := List.mem_map.mp ((h.networks _).mp (List.mem_map_of_mem hs))
  rw [← network]
  exact (mem_named.mp hr).2

theorem OnceEach.cons_nameless (h : OnceEach list out) (hidden : ap.nameless = true) :
    OnceEach (ap :: list) out := by
  refine ⟨by rw [named_cons_nameless hidden]; exact h.networks, h.once, ?_⟩
  intro s hs
  apply (h.merged s hs).cons_other
  intro same
  exact h.nonempty hs (same ▸ (nameless_iff ap).mp hidden)

theorem OnceEach.cons_named (h : OnceEach (list.map (cleared ap)) out)
    (shown : ap.nameless = false) : OnceEach (ap :: list)
      ({ ap with rssi := strongestOf ap.rssi (list.filter (identical ap)) } :: out) := by
  have others : ∀ s ∈ out, s.network ≠ ap.network := by
    intro s hs
    have listed := (h.networks _).mp (List.mem_map_of_mem hs)
    rw [named_cleared] at listed
    obtain ⟨r, hr, network⟩ := List.mem_map.mp listed
    rw [← network]
    simpa using (List.mem_filter.mp hr).2
  have rest : ∀ k, k ∈ out.map ApRecord.network ↔
      k ∈ (named list).map ApRecord.network ∧ k ≠ ap.network := by
    intro k
    rw [h.networks, named_cleared]
    simp only [List.mem_map, List.mem_filter, decide_eq_true_eq]
    constructor
    · rintro ⟨r, ⟨hr, other⟩, rfl⟩
      exact ⟨⟨r, hr, rfl⟩, other⟩
    · rintro ⟨⟨r, hr, rfl⟩, other⟩
      exact ⟨r, ⟨hr, other⟩, rfl⟩
  refine ⟨?_, ?_, ?_⟩
  · intro k
    rw [named_cons shown, List.map_cons, List.map_cons, List.mem_cons, List.mem_cons, rest]
    show k = ap.network ∨ _ ↔ k = ap.network ∨ _
    tauto
  · rw [List.map_cons, List.nodup_cons]
    exact ⟨fun listed => ((rest _).mp listed).2 rfl, h.once⟩
  · intro s hs
    rcases List.mem_cons.mp hs with rfl | hs
    · exact Merged.head ap list
    · have merged := (h.merged s hs).of_cleared (others s hs) (h.nonempty hs)
      exact merged.cons_other (others s hs).symm

end Merge

theorem OnceEach.nil : OnceEach [] [] :=
  ⟨fun _ => Iff.rfl, List.nodup_nil, fun _ h => absurd h List.not_mem_nil⟩

/-- The loops over the array, for any count of turns that reaches all records but the last. -/
theorem removeIdentical_once (n : Nat) (list : List ApRecord) (covered : list.length ≤ n + 1) :
    OnceEach list (named (removeIdentical n list)) := by
  induction n generalizing list with
  | zero =>
    cases list with
    | nil => exact OnceEach.nil
    | cons ap rest =>
      have none_left := Nat.le_zero.mp (Nat.le_of_succ_le_succ covered)
      obtain rfl : rest = [] := List.length_eq_zero_iff.mp none_left
      cases hidden : ap.nameless with
      | true =>
        rw [removeIdentical, named_cons_nameless hidden]
        exact OnceEach.nil.cons_nameless hidden
      | false =>
        rw [removeIdentical, named_cons hidden]
        have alone : OnceEach (([] : List ApRecord).map (cleared ap)) [] := OnceEach.nil
        exact alone.cons_named hidden
  | succ n ih =>
    cases list with
    | nil => exact OnceEach.nil
    | cons ap rest =>
      have covered' := Nat.le_of_succ_le_succ covered
      cases hidden : ap.nameless with
      | true =>
        rw [removeIdentical, if_pos hidden, named_cons_nameless hidden]
        exact (ih rest covered').cons_nameless hidden
      | false =>
        have once := ih (rest.map (cleared ap)) (by rwa [List.length_map])
        have named_head : ∀ rssi, ({ ap with rssi := rssi } : ApRecord).nameless = false :=
          fun _ => hidden
        rw [removeIdentical, if_neg (Bool.eq_false_iff.mp hidden), absorb_eq]
        dsimp only
        rw [named_cons (named_head _)]
        exact once.cons_named hidden

/-! ### The order of the slots -/

/-- After `i` turns: the named ones of the first `i` records, nameless slots up to `i`, and the
records that are still to come. -/
structure Compacted (records : List ApRecord) (i : Nat) (blanks : List ApRecord) (s : Reorder) :
    Prop where
  nameless : ∀ r ∈ blanks, r.nameless = true
  list : s.list = named (records.take i) ++ blanks ++ records.drop i
  firstFree : s.firstFree = if blanks = [] then none else some (named (records.take i)).length
  total : s.totalUnique + blanks.length = records.length
  length : (named (records.take i)).length + blanks.length = i

section Compaction
variable {records blanks : List ApRecord} {i : Nat} {s : Reorder}

theorem named_take_succ (inside : i < records.length) :
    named (records.take (i + 1)) =
      named (records.take i) ++ if records[i].nameless then [] else [records[i]] := by
  rw [List.take_succ_eq_append_getElem inside, named, named, List.filter_append]
  cases hidden : records[i].nameless <;> simp [hidden]

theorem Compacted.current (h : Compacted records i blanks s) (inside : i < records.length) :
    s.list.getD i .zero = records[i] := by
  have front : (named (records.take i) ++ blanks).length = i := by
    rw [List.length_append, h.length]
  rw [h.list, List.getD_eq_getElem?_getD, List.getElem?_append_right (Nat.le_of_eq front), front,
    Nat.sub_self, List.getElem?_drop, Nat.add_zero, List.getElem?_eq_getElem inside]
  rfl

theorem Compacted.skip (h : Compacted records i blanks s) (inside : i < records.length)
    (hidden : records[i].nameless = true) :
    Compacted records (i + 1) (blanks ++ [records[i]]) (reorderStep s i) := by
  have kept : named (records.take (i + 1)) = named (records.take i) := by
    rw [named_take_succ inside, hidden, if_pos rfl, List.append_nil]
  have length := h.length
  have total := h.total
  have stepped : reorderStep s i = { s with
      firstFree := if s.firstFree = none then some i else s.firstFree
      totalUnique := s.totalUnique - 1 } := by
    unfold reorderStep
    rw [h.current inside, if_pos hidden]
  rw [stepped]
  refine ⟨?_, ?_, ?_, ?_, ?_⟩
  · intro r hr
    rcases List.mem_append.mp hr with old | new
    · exact h.nameless r old
    · rw [List.mem_singleton.mp new]
      exact hidden
  · rw [kept, h.list, List.drop_eq_getElem_cons inside]
    simp
  · have some_blank : blanks ++ [records[i]] ≠ [] := by simp
    rw [kept, if_neg some_blank]
    show (if s.firstFree = none then some i else s.firstFree) = _
    rw [h.firstFree]
    cases blanks with
    | nil => exact congrArg some length.symm
    | cons b rest => rfl
  · rw [List.length_append, List.length_singleton]
    show s.totalUnique - 1 + _ = _
    omega
  · rw [kept, List.length_append, List.length_singleton]
    omega

/-- A record moves to the first free slot and frees its own. -/
theorem set_front (front : List ApRecord) (free : ApRecord) (bs rest : List ApRecord)
    (r : ApRecord) {own : Nat} (place : front.length + (bs.length + 1) = own) :
    ((front ++ (free :: bs) ++ r :: rest).set front.length r).set own .zero =
      front ++ [r] ++ (bs ++ [.zero]) ++ rest := by
  subst place
  simp [List.set_append_right]

theorem findIdx_free (front bs : List ApRecord) (shown : ∀ r ∈ front, r.nameless = false)
    {b : ApRecord} (hidden : b.nameless = true) :
    (front ++ b :: bs).findIdx? ApRecord.nameless = some front.length := by
  induction front with
  | nil => simp [List.findIdx?_cons, hidden]
  | cons r front ih =>
    have first := shown r List.mem_cons_self
    have later := ih fun q hq => shown q (List.mem_cons_of_mem r hq)
    simp [List.findIdx?_cons, first, later]

theorem Compacted.move (h : Compacted records i blanks s) (inside : i < records.length)
    (shown : records[i].nameless = false) :
    ∃ blanks', Compacted records (i + 1) blanks' (reorderStep s i) := by
  have grown : named (records.take (i + 1)) = named (records.take i) ++ [records[i]] := by
    rw [named_take_succ inside, shown, if_neg Bool.false_ne_true]
  have length := h.length
  have free := h.firstFree
  cases blanks with
  | nil =>
    have stepped : reorderStep s i = s := by
      unfold reorderStep
      rw [h.current inside, if_neg (Bool.eq_false_iff.mp shown), free]
      rfl
    rw [stepped]
    refine ⟨[], h.nameless, ?_, free, h.total, ?_⟩
    · rw [grown, h.list, List.drop_eq_getElem_cons inside]
      simp
    · rw [grown, List.length_append]
      exact congrArg (· + 1) length
  | cons b bs =>
    let front := named (records.take i)
    have place : front.length + (bs.length + 1) = i := length
    have moved : (s.list.set front.length records[i]).set i .zero =
        front ++ [records[i]] ++ (bs ++ [.zero]) ++ records.drop (i + 1) := by
      rw [h.list, List.drop_eq_getElem_cons inside]
      exact set_front front b bs (records.drop (i + 1)) records[i] place
    have all_shown : ∀ r ∈ front ++ [records[i]], r.nameless = false := by
      intro r hr
      rcases List.mem_append.mp hr with old | new
      · simpa using (List.mem_filter.mp old).2
      · rw [List.mem_singleton.mp new]
        exact shown
    have all_hidden : ∀ r ∈ bs ++ [ApRecord.zero], r.nameless = true := by
      intro r hr
      rcases List.mem_append.mp hr with old | new
      · exact h.nameless r (List.mem_cons_of_mem b old)
      · rw [List.mem_singleton.mp new]
        exact zero_nameless
    obtain ⟨c, cs, blank⟩ := List.exists_cons_of_ne_nil (l := bs ++ [ApRecord.zero]) (by simp)
    have next : (front ++ [records[i]] ++ (bs ++ [ApRecord.zero]) ++ records.drop (i + 1)).findIdx?
        ApRecord.nameless = some (front ++ [records[i]]).length := by
      rw [blank, List.append_assoc, List.cons_append]
      exact findIdx_free _ _ all_shown (all_hidden c (blank ▸ List.mem_cons_self))
    have stepped : reorderStep s i = { s with
        list := front ++ [records[i]] ++ (bs ++ [.zero]) ++ records.drop (i + 1)
        firstFree := some (front ++ [records[i]]).length } := by
      have held : s.firstFree = some front.length := free
      unfold reorderStep
      rw [h.current inside, if_neg (Bool.eq_false_iff.mp shown), held]
      dsimp only
      rw [moved, next]
      rfl
    have blanks_length : (bs ++ [ApRecord.zero]).length = bs.length + 1 := List.length_append
    rw [stepped]
    refine ⟨bs ++ [.zero], all_hidden, ?_, ?_, ?_, ?_⟩
    · rw [grown]
    · rw [grown, if_neg (by simp)]
    · rw [blanks_length]
      exact h.total
    · rw [grown, blanks_length, List.length_append]
      show front.length + 1 + (bs.length + 1) = i + 1
      omega

/-- The whole loop. -/
theorem reorder_compacts (records : List ApRecord) :
    ∃ blanks, (reorder records).list = named records ++ blanks ∧
      (reorder records).totalUnique = (named records).length := by
  have run : ∀ i ≤ records.length, ∃ blanks, Compacted records i blanks
      ((List.range i).foldl reorderStep ⟨records, none, records.length⟩) := by
    intro i
    induction i with
    | zero =>
      intro _
      exact ⟨[], fun r h => absurd h List.not_mem_nil, rfl, rfl, rfl, rfl⟩
    | succ i ih =>
      intro inside
      obtain ⟨blanks, compacted⟩ := ih (Nat.le_of_succ_le inside)
      rw [List.range_succ, List.foldl_concat]
      cases hidden : records[i].nameless with
      | true => exact ⟨_, compacted.skip inside hidden⟩
      | false => exact compacted.move inside hidden
  obtain ⟨blanks, done⟩ := run records.length (Nat.le_refl _)
  have list := done.list
  have total := done.total
  have length := done.length
  rw [List.take_length] at list length
  rw [List.drop_length, List.append_nil] at list
  exact ⟨blanks, list, by unfold reorder; omega⟩

end Compaction

/-! ### The whole clean-up -/

/-- Behind the stronger one, or as strong with an SSID that does not come before. -/
def Ordered (a b : ApRecord) : Prop :=
  b.rssi < a.rssi ∨ a.rssi = b.rssi ∧ a.network.1 ≤ b.network.1

theorem apCompareRssi_nonpos_iff (a b : ApRecord) : apCompareRssi a b ≤ 0 ↔ Ordered a b := by
  unfold apCompareRssi Ordered
  split
  · rename_i louder
    exact iff_of_true (by decide) (.inl louder)
  rename_i not_louder
  split
  · rename_i softer
    refine iff_of_false (by decide) ?_
    rintro (louder | ⟨same, _⟩)
    · exact not_louder louder
    · exact Int8.ne_of_lt softer same
  · rename_i not_softer
    have same : a.rssi = b.rssi :=
      Int8.le_antisymm (Int8.not_lt.mp not_louder) (Int8.not_lt.mp not_softer)
    rw [strcmp_nonpos_iff]
    constructor
    · exact fun before => .inr ⟨same, before⟩
    · rintro (louder | ⟨_, before⟩)
      · exact absurd louder not_louder
      · exact before

theorem OnceEach.perm {list out out' : List ApRecord} (h : OnceEach list out) (p : out'.Perm out) :
    OnceEach list out' := by
  have networks := p.map ApRecord.network
  exact ⟨fun k => networks.mem_iff.trans (h.networks k), networks.nodup_iff.mpr h.once,
    fun s hs => h.merged s (p.mem_iff.mp hs)⟩

theorem OnceEach.card {list out : List ApRecord} (h : OnceEach list out) :
    out.length = ((named list).map ApRecord.network).toFinset.card := by
  have same :
      (out.map ApRecord.network).toFinset = ((named list).map ApRecord.network).toFinset := by
    ext k
    rw [List.mem_toFinset, List.mem_toFinset]
    exact h.networks k
  rw [← same, List.toFinset_card_of_nodup h.once, List.length_map]

/-- The clean-up of a scan, with a `qsort` that sorts. -/
theorem cleanup_correct
    (qsort : (ApRecord → ApRecord → Int) → List ApRecord → List ApRecord)
    (permutes : ∀ l, (qsort apCompareRssi l).Perm l)
    (sorts : ∀ l, (qsort apCompareRssi l).Pairwise fun a b => apCompareRssi a b ≤ 0)
    (list : List ApRecord) :
    let (array, count) := apFilterSortUnique qsort list
    count = ((named list).map ApRecord.network).toFinset.card ∧ count ≤ array.length ∧
      OnceEach list (array.take count) ∧ (array.take count).Pairwise Ordered := by
  obtain ⟨blanks, compacted, total⟩ := reorder_compacts (removeIdentical (list.length - 1) list)
  have once := removeIdentical_once (list.length - 1) list (by omega)
  let networks := named (removeIdentical (list.length - 1) list)
  have cleaned : apFilterSortUnique qsort list =
      (qsort apCompareRssi networks ++ blanks, networks.length) := by
    unfold apFilterSortUnique
    dsimp only
    rw [compacted, total, List.take_left, List.drop_left]
  have count : networks.length = (qsort apCompareRssi networks).length :=
    (permutes networks).length_eq.symm
  have slots : (qsort apCompareRssi networks ++ blanks).take networks.length =
      qsort apCompareRssi networks := by
    rw [count, List.take_left]
  rw [cleaned]
  dsimp only
  rw [slots]
  refine ⟨once.card, ?_, once.perm (permutes networks), ?_⟩
  · rw [List.length_append, count]
    exact Nat.le_add_right _ _
  · exact (sorts networks).imp fun {a b} => (apCompareRssi_nonpos_iff a b).mp

/-! Insertion sort is such a `qsort`. -/

theorem ordered_total (a b : ApRecord) : Ordered a b ∨ Ordered b a := by
  unfold Ordered
  rcases Int8.lt_or_le b.rssi a.rssi with louder | not_louder
  · exact .inl (.inl louder)
  rcases Int8.lt_or_le a.rssi b.rssi with softer | not_softer
  · exact .inr (.inl softer)
  · have same := Int8.le_antisymm not_softer not_louder
    rcases List.le_total a.network.1 b.network.1 with before | behind
    · exact .inl (.inr ⟨same.symm, before⟩)
    · exact .inr (.inr ⟨same, behind⟩)

theorem ordered_trans {a b c : ApRecord} (h : Ordered a b) (h' : Ordered b c) : Ordered a c := by
  rcases h with louder | ⟨same, before⟩
  · rcases h' with louder' | ⟨same', _⟩
    · exact .inl (Int8.lt_trans louder' louder)
    · exact .inl (same' ▸ louder)
  · rcases h' with louder' | ⟨same', before'⟩
    · exact .inl (same ▸ louder')
    · exact .inr ⟨same.trans same', List.le_trans before before'⟩

instance compare_total : Std.Total fun a b => apCompareRssi a b ≤ 0 where
  total a b := by
    rw [apCompareRssi_nonpos_iff, apCompareRssi_nonpos_iff]
    exact ordered_total a b

instance compare_trans : IsTrans ApRecord fun a b => apCompareRssi a b ≤ 0 where
  trans a b c := by
    simp only [apCompareRssi_nonpos_iff]
    exact ordered_trans

theorem plain_qsort (l : List ApRecord) :
    plainPlatform.qsort apCompareRssi l = l.insertionSort fun a b => apCompareRssi a b ≤ 0 := by
  have inserted : ∀ (a : ApRecord) (l : List ApRecord),
      insertBy apCompareRssi a l = l.orderedInsert (fun a b => apCompareRssi a b ≤ 0) a := by
    intro a l
    induction l with
    | nil => rfl
    | cons b rest ih => rw [insertBy, List.orderedInsert_cons, ih]
  induction l with
  | nil => rfl
  | cons a l ih =>
    rw [List.insertionSort_cons, ← ih]
    exact inserted a _

theorem plain_permutes (l : List ApRecord) : (plainPlatform.qsort apCompareRssi l).Perm l := by
  rw [plain_qsort]
  exact List.perm_insertionSort _ l

theorem plain_sorts (l : List ApRecord) :
    (plainPlatform.qsort apCompareRssi l).Pairwise fun a b => apCompareRssi a b ≤ 0 := by
  rw [plain_qsort]
  exact List.pairwise_insertionSort _ l

/-- Two access points of one network around a hidden one, and a weaker network. -/
def crowded : List ApRecord :=
  [seen lab (-70), .zero, seen hall (-60), seen lab (-40)]

theorem cleanup_correct_crowded :
    let (array, count) := apFilterSortUnique plainPlatform.qsort crowded
    count = ((named crowded).map ApRecord.network).toFinset.card ∧ count ≤ array.length ∧
      OnceEach crowded (array.take count) ∧ (array.take count).Pairwise Ordered :=
  cleanup_correct plainPlatform.qsort plain_permutes plain_sorts crowded

example : (apFilterSortUnique plainPlatform.qsort crowded).1.take 2 =
    [seen lab (-40), seen hall (-60)] := by decide

end Rocom.Wilma
