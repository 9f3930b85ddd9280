import Mathlib.Data.List.Induction
import Mathlib.Data.String.Basic
import Availability.Proofs.Json.Document

/-!
# The normal form of a document

What is read of a document and written again denotes the same document, with each name of an object
once, the last value of it, and the names in order; it has no white space but in its strings; and it
is read and written as itself from then on.

* `denotes_write`, `compact_write`: what a written value denotes, and that no white space is in it.
* `Members.lookup_ofList`, `Members.inOrder_ofList`: the members of an object that was read.
* `fits_sorted`, `sorted_sorted`: what was read is read as itself.
* `resolves_iff`: what is read resolves what the document denotes, and nothing else does.
-/

namespace Availability.Json

open Url (utf8 utf8_cons)
open Digits (isDecimal_toDigits)

/-! ## What fits -/

theorem itemsFit_cons {depth : Nat} {v : Value} {vs : List Value} :
    itemsFit depth (v :: vs) = true ↔ v.fits depth = true ∧ itemsFit depth vs = true := by
  rw [itemsFit, Bool.and_eq_true]

theorem membersFit_cons (k : String) {depth : Nat} {v : Value} {ms : Members} :
    membersFit depth ((k, v) :: ms) = true ↔ v.fits depth = true ∧ membersFit depth ms = true := by
  rw [membersFit, Bool.and_eq_true]

theorem membersFit_iff {depth : Nat} {ms : Members} :
    membersFit depth ms = true ↔ ∀ m ∈ ms, m.2.fits depth = true := by
  induction ms with
  | nil => simp [membersFit]
  | cons m ms ih => rw [membersFit_cons, ih, List.forall_mem_cons]

/-! ## What is written -/

theorem encode_write (v : Value) : Utf8.encode (write v) = utf8 (writeValue v) := by
  rw [write, Utf8.encode, String.toList_ofList]
  rfl

theorem spells_write (s : String) : Spells (utf8 (s.toList.flatMap writeChar)) s.toList := by
  obtain ⟨body, hbody, hbytes⟩ := readText_eq_ok_iff.1 (readText_writeText s [])
  rwa [List.append_cancel_right hbytes]

theorem DenoteItems.one {s : Bytes} {v : Value} (h : Denotes s v) : DenoteItems s [v] := by
  simpa [itemBytes] using DenoteItems.last white_nil h white_nil

theorem DenoteItems.cons {s t : Bytes} {v : Value} {vs : List Value} (h : Denotes s v)
    (ht : DenoteItems t vs) : DenoteItems (s ++ 0x2C :: t) (v :: vs) := by
  simpa [itemBytes] using DenoteItems.more white_nil h white_nil ht

/-- A member without white space. -/
def tightMember (k : String) (s : Bytes) : Bytes :=
  0x22 :: (utf8 (k.toList.flatMap writeChar) ++ 0x22 :: 0x3A :: s)

theorem utf8_tightMember (k : String) (v : Value) (rest : List Char) :
    utf8 (writeText k ++ ':' :: writeValue v ++ rest) =
      tightMember k (utf8 (writeValue v)) ++ utf8 rest := by
  simpa [tightMember] using utf8_member k v rest []

theorem DenoteMembers.one {k : String} {s : Bytes} {v : Value} (h : Denotes s v) :
    DenoteMembers (tightMember k s) [(k, v)] := by
  simpa [memberBytes, itemBytes, tightMember] using
    DenoteMembers.last white_nil (spells_write k) white_nil white_nil h white_nil

theorem DenoteMembers.cons {k : String} {s t : Bytes} {v : Value} {ms : Members}
    (h : Denotes s v) (ht : DenoteMembers t ms) :
    DenoteMembers (tightMember k s ++ 0x2C :: t) ((k, v) :: ms) := by
  simpa [memberBytes, itemBytes, tightMember] using
    DenoteMembers.more white_nil (spells_write k) white_nil white_nil h white_nil ht

-- The printer writes the first item with the bracket and all others with their commas and the end.
-- So what is said of the others starts from the text of the one before them.
mutual

/-- A written value denotes the value. -/
theorem denotes_write {v : Value} {depth : Nat} (h : v.fits depth = true) :
    Denotes (utf8 (writeValue v)) v := by
  match v, depth with
  | .null, _ => exact .null
  | .bool true, _ => exact .true
  | .bool false, _ => exact .false
  | .number (.int i), _ =>
    obtain ⟨hlow, hhigh⟩ : -0x8000000000000000 ≤ i ∧ i ≤ 0xffffffffffffffff := by
      simpa [Value.fits] using h
    exact .integer (isInteger_iff.2 rfl) hlow hhigh
  | .text t, _ =>
    have htext := utf8_writeText t []
    rw [List.append_nil] at htext
    rw [writeValue, htext]
    exact .text (spells_write t)
  | .array [], _ => exact .emptyArray white_nil
  | .array (v :: vs), depth + 1 =>
    obtain ⟨hv, hvs⟩ := itemsFit_cons.1 h
    obtain ⟨s, hs, hitems⟩ := denoteItems_write (denotes_write hv) hvs
    have hbytes : utf8 (writeValue (.array (v :: vs))) = 0x5B :: (s ++ [0x5D]) := by
      rw [← hs, ← utf8_append]
      rfl
    rw [hbytes]
    exact .array hitems
  | .object [], _ => exact .emptyObject white_nil
  | .object ((k, v) :: ms), depth + 1 =>
    obtain ⟨hv, hms⟩ := (membersFit_cons k).1 h
    obtain ⟨s, hs, hmembers⟩ := denoteMembers_write k (denotes_write hv) hms
    have hbytes : utf8 (writeValue (.object ((k, v) :: ms))) = 0x7B :: (s ++ [0x7D]) := by
      rw [← hs, ← utf8_tightMember]
      rfl
    rw [hbytes]
    exact .object hmembers

theorem denoteItems_write {s : Bytes} {v : Value} {vs : List Value} {depth : Nat}
    (hs : Denotes s v) (hvs : itemsFit depth vs = true) :
    ∃ t, s ++ utf8 (writeItems vs) = t ++ [0x5D] ∧ DenoteItems t (v :: vs) := by
  match vs with
  | [] => exact ⟨s, rfl, .one hs⟩
  | w :: ws =>
    obtain ⟨hw, hws⟩ := itemsFit_cons.1 hvs
    obtain ⟨t, ht, hitems⟩ := denoteItems_write (denotes_write hw) hws
    refine ⟨s ++ 0x2C :: t, ?_, .cons hs hitems⟩
    rw [List.append_assoc, List.cons_append, ← ht, ← utf8_append]
    rfl

theorem denoteMembers_write (k : String) {s : Bytes} {v : Value} {ms : Members} {depth : Nat}
    (hs : Denotes s v) (hms : membersFit depth ms = true) :
    ∃ t, tightMember k s ++ utf8 (writeMembers ms) = t ++ [0x7D] ∧
      DenoteMembers t ((k, v) :: ms) := by
  match ms with
  | [] => exact ⟨tightMember k s, rfl, .one hs⟩
  | (l, w) :: ms =>
    obtain ⟨hw, hms⟩ := (membersFit_cons l).1 hms
    obtain ⟨t, ht, hmembers⟩ := denoteMembers_write l (denotes_write hw) hms
    refine ⟨tightMember k s ++ 0x2C :: t, ?_, .cons hs hmembers⟩
    rw [List.append_assoc, List.cons_append, ← ht, ← utf8_tightMember]
    rfl

end

/-! ## White space -/

/-- A text without white space but in its strings. -/
inductive Compact : Bytes → Prop where
  | nil : Compact []
  | mark {b : UInt8} {s : Bytes} : b ≠ 0x22 → ¬White [b] → Compact s → Compact (b :: s)
  | text {s t : Bytes} : Quotable s → Compact t → Compact (0x22 :: (s ++ 0x22 :: t))

theorem not_white {b : UInt8} (h : isSpace b = false) : ¬White [b] := by
  intro hwhite
  rw [isSpace_iff.2 (hwhite b List.mem_cons_self)] at h
  cases h

theorem Compact.marks {s t : Bytes} (h : s.all (fun b => b != 0x22 && !isSpace b) = true)
    (ht : Compact t) : Compact (s ++ t) := by
  induction s with
  | nil => exact ht
  | cons b s ih =>
    rw [List.all_cons, Bool.and_eq_true, Bool.and_eq_true, bne_iff_ne, Bool.not_eq_true'] at h
    obtain ⟨⟨hquote, hspace⟩, hs⟩ := h
    exact .mark hquote (not_white hspace) (ih hs)

theorem compact_writeInt (i : Int) {r : Bytes} (hr : Compact r) :
    Compact (utf8 (writeInt i) ++ r) := by
  have hdigits := isDecimal_toDigits i.natAbs
  have hall : (utf8 (Nat.toDigits 10 i.natAbs)).all (fun b => b != 0x22 && !isSpace b) = true := by
    rw [List.all_eq_true]
    intro b hb
    rw [utf8_digits fun c hc => hdigits.isDigit hc] at hb
    obtain ⟨c, hc, rfl⟩ := List.mem_map.1 hb
    have hstart := start_digit (hdigits.isDigit hc)
    rw [Bool.and_eq_true, bne_iff_ne, Bool.not_eq_true']
    refine ⟨fun heq => ?_, isSpace_of_start (by rw [hstart]; exact nofun)⟩
    rw [heq] at hstart
    cases hstart
  have hrest := Compact.marks hall hr
  rw [writeInt, utf8_append, List.append_assoc]
  split
  · exact .mark (by decide) (not_white rfl) hrest
  · exact hrest

theorem compact_tightMember (k : String) {s : Bytes} (hs : Compact s) :
    Compact (tightMember k s) :=
  .text (spells_write k).quotable (.mark (by decide) (not_white rfl) hs)

-- The text `r` that follows is part of the statement, so that no text has to be taken apart.
mutual

/-- A written value has no white space but in its strings. -/
theorem compact_write {v : Value} {depth : Nat} (h : v.fits depth = true) {r : Bytes}
    (hr : Compact r) : Compact (utf8 (writeValue v) ++ r) := by
  match v, depth with
  | .null, _ => exact .marks (s := utf8 ['n', 'u', 'l', 'l']) rfl hr
  | .bool true, _ => exact .marks (s := utf8 ['t', 'r', 'u', 'e']) rfl hr
  | .bool false, _ => exact .marks (s := utf8 ['f', 'a', 'l', 's', 'e']) rfl hr
  | .number (.int i), _ => exact compact_writeInt i hr
  | .text t, _ =>
    rw [writeValue, utf8_writeText]
    exact .text (spells_write t).quotable hr
  | .array [], _ => exact .marks (s := utf8 ['[', ']']) rfl hr
  | .array (v :: vs), depth + 1 =>
    obtain ⟨hv, hvs⟩ := itemsFit_cons.1 h
    have hitems := compact_write hv (compact_writeItems hvs hr)
    rw [← utf8_item] at hitems
    exact .mark (b := 0x5B) (by decide) (not_white rfl) hitems
  | .object [], _ => exact .marks (s := utf8 ['{', '}']) rfl hr
  | .object ((k, v) :: ms), depth + 1 =>
    obtain ⟨hv, hms⟩ := (membersFit_cons k).1 h
    have hmembers := compact_tightMember k (compact_write hv (compact_writeMembers hms hr))
    rw [tightMember, ← utf8_member] at hmembers
    exact .mark (b := 0x7B) (by decide) (not_white rfl) hmembers

theorem compact_writeItems {vs : List Value} {depth : Nat} (h : itemsFit depth vs = true)
    {r : Bytes} (hr : Compact r) : Compact (utf8 (writeItems vs) ++ r) := by
  match vs with
  | [] => exact .mark (b := 0x5D) (by decide) (not_white rfl) hr
  | v :: vs =>
    obtain ⟨hv, hvs⟩ := itemsFit_cons.1 h
    have hitems := compact_write hv (compact_writeItems hvs hr)
    rw [← utf8_item] at hitems
    exact .mark (b := 0x2C) (by decide) (not_white rfl) hitems

theorem compact_writeMembers {ms : Members} {depth : Nat} (h : membersFit depth ms = true)
    {r : Bytes} (hr : Compact r) : Compact (utf8 (writeMembers ms) ++ r) := by
  match ms with
  | [] => exact .mark (b := 0x7D) (by decide) (not_white rfl) hr
  | (k, v) :: ms =>
    obtain ⟨hv, hms⟩ := (membersFit_cons k).1 h
    have hmembers := compact_tightMember k (compact_write hv (compact_writeMembers hms hr))
    rw [tightMember, ← utf8_member] at hmembers
    exact .mark (b := 0x2C) (by decide) (not_white rfl) hmembers

end

/-! ## The members of an object that was read -/

namespace Members

/-- Members in the order of their names, each name once. -/
def InOrder (ms : Members) : Prop := ms.Pairwise fun m n => m.1 < n.1

theorem lookup_map {α β : Type} (f : α → β) (ps : List (String × α)) (k : String) :
    (ps.map fun p => (p.1, f p.2)).lookup k = (ps.lookup k).map f := by
  induction ps with
  | nil => rfl
  | cons p ps ih =>
    rw [List.map_cons, List.lookup_cons, List.lookup_cons, ih]
    split <;> rfl

theorem mem_of_lookup {k : String} {v : Value} {ms : Members} (h : ms.lookup k = some v) :
    (k, v) ∈ ms := by
  obtain ⟨before, after, rfl, -⟩ := List.lookup_eq_some_iff.1 h
  exact List.mem_append_right _ List.mem_cons_self

theorem lookup_cons (l k : String) (w : Value) (ms : Members) :
    List.lookup k ((l, w) :: ms) = if k = l then some w else ms.lookup k := by
  by_cases h : k = l
  · simp [h]
  · simp [List.lookup_cons, h, beq_false_of_ne h]

theorem lookup_insert (name k : String) (v : Value) (ms : Members) :
    (insert name v ms).lookup k = if k = name then some v else ms.lookup k := by
  induction ms with
  | nil => rw [insert, lookup_cons]
  | cons m ms ih =>
    obtain ⟨l, w⟩ := m
    unfold insert
    split
    · rw [lookup_cons]
    split
    · next heq =>
      rw [lookup_cons, lookup_cons, heq]
      split <;> rfl
    · next hne =>
      rw [lookup_cons, lookup_cons, ih]
      grind

theorem ofList_concat (ps : List (String × Value)) (p : String × Value) :
    ofList (ps ++ [p]) = insert p.1 p.2 (ofList ps) :=
  List.foldl_append

theorem keys_ofList (ps : List (String × Value)) (k : String) :
    k ∈ (ofList ps).map Prod.fst ↔ k ∈ ps.map Prod.fst := by
  induction ps using List.reverseRecOn with
  | nil => rfl
  | append_singleton ps p ih =>
    rw [ofList_concat, keys_insert, ih, List.map_append, List.mem_append, or_comm]
    simp

/-- Under each name is the last that was inserted. -/
theorem lookup_ofList (ps : List (String × Value)) (k : String) :
    (ofList ps).lookup k = ps.reverse.lookup k := by
  have hfold (done : Members) : (ps.foldl (fun ms p => insert p.1 p.2 ms) done).lookup k =
      (ps.reverse ++ done).lookup k := by
    induction ps generalizing done with
    | nil => rfl
    | cons p ps ih =>
      rw [List.foldl_cons, ih, List.reverse_cons, List.append_assoc, List.lookup_append,
        List.lookup_append, lookup_insert, List.singleton_append, lookup_cons]
  rw [ofList, hfold, List.append_nil]

theorem mem_insert {name : String} {v : Value} {ms : Members} {p : String × Value}
    (h : p ∈ insert name v ms) : p = (name, v) ∨ p ∈ ms := by
  induction ms with
  | nil => exact .inl (List.mem_singleton.1 h)
  | cons m ms ih =>
    unfold insert at h
    grind

theorem mem_ofList {ps : List (String × Value)} {p : String × Value} (h : p ∈ ofList ps) :
    p ∈ ps := by
  induction ps using List.reverseRecOn with
  | nil => cases h
  | append_singleton ps q ih =>
    rw [ofList_concat] at h
    rcases mem_insert h with rfl | h
    · exact List.mem_append_right _ List.mem_cons_self
    · exact List.mem_append_left _ (ih h)

theorem InOrder.insert {ms : Members} (h : ms.InOrder) (name : String) (v : Value) :
    (ms.insert name v).InOrder := by
  induction ms with
  | nil => exact List.pairwise_singleton _ _
  | cons m ms ih =>
    obtain ⟨hm, hms⟩ := List.pairwise_cons.1 h
    unfold Members.insert
    split
    · next hlt =>
      exact List.pairwise_cons.2 ⟨List.forall_mem_cons.2 ⟨hlt, fun n hn => hlt.trans (hm n hn)⟩, h⟩
    split
    · next heq =>
      exact List.pairwise_cons.2 ⟨fun n hn => heq ▸ hm n hn, hms⟩
    · next hnlt hne =>
      have hlt : m.1 < name := (lt_or_gt_of_ne hne).resolve_left hnlt
      refine List.pairwise_cons.2 ⟨fun n hn => ?_, ih hms⟩
      rcases mem_insert hn with rfl | hn
      · exact hlt
      · exact hm n hn

theorem inOrder_ofList (ps : List (String × Value)) : (ofList ps).InOrder := by
  induction ps using List.reverseRecOn with
  | nil => exact .nil
  | append_singleton ps p ih =>
    rw [ofList_concat]
    exact ih.insert p.1 p.2

/-- A member after all others is put at the end. -/
theorem insert_of_lt {name : String} {v : Value} {ms : Members} (h : ∀ m ∈ ms, m.1 < name) :
    insert name v ms = ms ++ [(name, v)] := by
  induction ms with
  | nil => rfl
  | cons m ms ih =>
    obtain ⟨hm, hms⟩ := List.forall_mem_cons.1 h
    rw [insert, if_neg hm.asymm, if_neg hm.ne', ih hms, List.cons_append]

theorem ofList_of_inOrder {ms : Members} (h : ms.InOrder) : ofList ms = ms := by
  induction ms using List.reverseRecOn with
  | nil => rfl
  | append_singleton ms m ih =>
    obtain ⟨hms, -, hlast⟩ := List.pairwise_append.1 h
    rw [ofList_concat, ih hms]
    exact insert_of_lt fun n hn => hlast n hn m List.mem_cons_self

theorem lookup_of_lt {k : String} {ms : Members} (h : ∀ m ∈ ms, k < m.1) :
    ms.lookup k = none := by
  rw [List.lookup_eq_none_iff]
  intro m hm
  exact bne_iff_ne.2 (h m hm).ne

/-- What is under the first name of some members is under none of others that come later. -/
theorem InOrder.not_before {m n : String × Value} {ms ns : Members} (hns : InOrder (n :: ns))
    (h : List.lookup m.1 (m :: ms) = List.lookup m.1 (n :: ns)) : ¬m.1 < n.1 := by
  intro hlt
  have hnone : List.lookup m.1 (n :: ns) = none :=
    lookup_of_lt <| List.forall_mem_cons.2
      ⟨hlt, fun p hp => hlt.trans ((List.pairwise_cons.1 hns).1 p hp)⟩
  rw [hnone, lookup_cons, if_pos rfl] at h
  cases h

/-- Members in order are known from what is under each name. -/
theorem InOrder.ext {ms ns : Members} (hms : ms.InOrder) (hns : ns.InOrder)
    (h : ∀ k, ms.lookup k = ns.lookup k) : ms = ns := by
  induction ms generalizing ns with
  | nil =>
    cases ns with
    | nil => rfl
    | cons n ns =>
      have hn := h n.1
      rw [lookup_cons, if_pos rfl] at hn
      cases hn
  | cons m ms ih =>
    cases ns with
    | nil =>
      have hm := h m.1
      rw [lookup_cons, if_pos rfl] at hm
      cases hm
    | cons n ns =>
      have hname : m.1 = n.1 :=
        le_antisymm (not_lt.1 (hms.not_before (h n.1).symm)) (not_lt.1 (hns.not_before (h m.1)))
      have hvalue : m.2 = n.2 := by
        have hm := h m.1
        rw [lookup_cons, lookup_cons, if_pos rfl, if_pos hname] at hm
        exact Option.some.inj hm
      obtain ⟨hm, hms⟩ := List.pairwise_cons.1 hms
      obtain ⟨hn, hns⟩ := List.pairwise_cons.1 hns
      rw [Prod.ext hname hvalue, ih hms hns fun k => ?_]
      have hk := h k
      rw [lookup_cons, lookup_cons, hname] at hk
      by_cases hkn : k = n.1
      · rw [hkn, lookup_of_lt hn, lookup_of_lt (hname ▸ hm)]
      · rwa [if_neg hkn, if_neg hkn] at hk

theorem lookup_eq_none_iff {k : String} {ms : Members} :
    ms.lookup k = none ↔ k ∉ ms.map Prod.fst := by
  induction ms with
  | nil => simp
  | cons m ms ih =>
    rw [lookup_cons, List.map_cons, List.mem_cons, not_or, ← ih]
    by_cases h : k = m.1 <;> simp [h]

end Members

/-! ## What was read is read as itself -/

mutual

/-- What is read of a value stands no deeper than the value. -/
theorem fits_sorted {v : Value} {depth : Nat} (h : v.fits depth = true) :
    v.sorted.fits depth = true := by
  match v, depth with
  | .null, _ => exact h
  | .bool _, _ => exact h
  | .number _, _ => exact h
  | .text _, _ => exact h
  | .array vs, depth + 1 =>
    have hvs : itemsFit depth vs = true := h
    exact itemsFit_sorted hvs
  | .object ms, depth + 1 =>
    have hms : membersFit depth (sortedMembers ms) = true := membersFit_sorted h
    exact membersFit_iff.2 fun m hm => membersFit_iff.1 hms m (Members.mem_ofList hm)

theorem itemsFit_sorted {vs : List Value} {depth : Nat} (h : itemsFit depth vs = true) :
    itemsFit depth (sortedItems vs) = true := by
  match vs with
  | [] => rfl
  | v :: vs =>
    obtain ⟨hv, hvs⟩ := itemsFit_cons.1 h
    simp only [sortedItems, itemsFit, fits_sorted hv, itemsFit_sorted hvs, Bool.and_self]

theorem membersFit_sorted {ms : Members} {depth : Nat} (h : membersFit depth ms = true) :
    membersFit depth (sortedMembers ms) = true := by
  match ms with
  | [] => rfl
  | (k, v) :: ms =>
    obtain ⟨hv, hms⟩ := (membersFit_cons k).1 h
    simp only [sortedMembers, membersFit, fits_sorted hv, membersFit_sorted hms, Bool.and_self]

end

theorem sortedMembers_eq_self {ms : Members} (h : ∀ m ∈ ms, m.2.sorted = m.2) :
    sortedMembers ms = ms := by
  induction ms with
  | nil => rfl
  | cons m ms ih =>
    obtain ⟨hm, hms⟩ := List.forall_mem_cons.1 h
    rw [sortedMembers, hm, ih hms]

mutual

/-- What is read of a value is in order already. -/
theorem sorted_sorted (v : Value) : v.sorted.sorted = v.sorted := by
  match v with
  | .null => rfl
  | .bool _ => rfl
  | .number _ => rfl
  | .text _ => rfl
  | .array vs => exact congrArg Value.array (sortedItems_sorted vs)
  | .object ms =>
    have hms : sortedMembers (Members.ofList (sortedMembers ms)) =
        Members.ofList (sortedMembers ms) :=
      sortedMembers_eq_self fun m hm => sorted_of_mem ms (Members.mem_ofList hm)
    rw [Value.sorted, Value.sorted, hms,
      Members.ofList_of_inOrder (Members.inOrder_ofList (sortedMembers ms))]

theorem sortedItems_sorted (vs : List Value) : sortedItems (sortedItems vs) = sortedItems vs := by
  match vs with
  | [] => rfl
  | v :: vs => rw [sortedItems, sortedItems, sorted_sorted v, sortedItems_sorted vs]

theorem sorted_of_mem (ms : Members) {m : String × Value} (hm : m ∈ sortedMembers ms) :
    m.2.sorted = m.2 := by
  match ms with
  | [] => cases hm
  | (k, v) :: ms =>
    rw [sortedMembers, List.mem_cons] at hm
    rcases hm with rfl | hm
    · exact sorted_sorted v
    · exact sorted_of_mem ms hm

end

/-- What was read is written so that it is read as itself. -/
theorem read_write_sorted {v : Value} (h : v.fits depthMax = true) :
    read (Utf8.encode (write v.sorted)) = .ok v.sorted := by
  rw [read_write (fits_sorted h), sorted_sorted]

/-! ## Duplicate names -/

/-- Names in the order of their bytes, each once. -/
def Ascending (names : List String) : Prop := (names.map Utf8.encode).Pairwise (· < ·)

theorem Members.InOrder.ascending {ms : Members} (h : ms.InOrder) :
    Ascending (ms.map Prod.fst) := by
  rw [Ascending, List.map_map]
  exact List.pairwise_map.2 (h.imp Utf8.encode_lt)

/-- Whether `n` is the value `v` with each name that an object has more than once resolved to the
last, and the names in order. -/
inductive Resolves : (v n : Value) → Prop where
  | null : Resolves .null .null
  | bool (b : Bool) : Resolves (.bool b) (.bool b)
  | number (x : Number) : Resolves (.number x) (.number x)
  | text (t : String) : Resolves (.text t) (.text t)
  | array {vs ns : List Value} : List.Forall₂ Resolves vs ns → Resolves (.array vs) (.array ns)
  | object {ms ns : Members} : Ascending (ns.map Prod.fst) →
      (∀ k, k ∈ ns.map Prod.fst ↔ k ∈ ms.map Prod.fst) →
      (∀ k v n, ms.reverse.lookup k = some v → ns.lookup k = some n → Resolves v n) →
      Resolves (.object ms) (.object ns)

theorem sortedMembers_eq_map (ms : Members) :
    sortedMembers ms = ms.map fun m => (m.1, m.2.sorted) := by
  induction ms with
  | nil => rfl
  | cons m ms ih => rw [sortedMembers, ih, List.map_cons]

mutual

/-- What is read of a value resolves it. -/
theorem resolves_sorted (v : Value) : Resolves v v.sorted := by
  match v with
  | .null => exact .null
  | .bool b => exact .bool b
  | .number x => exact .number x
  | .text t => exact .text t
  | .array vs => exact .array (resolves_items vs)
  | .object ms =>
    refine .object (Members.inOrder_ofList _).ascending (fun k => ?_) fun k v n hv hn => ?_
    · rw [Members.keys_ofList, sortedMembers_eq_map, List.map_map]
      rfl
    · -- the last of a name is read of the last of that name
      rw [Members.lookup_ofList, sortedMembers_eq_map, ← List.map_reverse, Members.lookup_map,
        hv] at hn
      cases hn
      exact resolves_of_mem ms (List.mem_reverse.1 (Members.mem_of_lookup hv))

theorem resolves_items (vs : List Value) : List.Forall₂ Resolves vs (sortedItems vs) := by
  match vs with
  | [] => exact .nil
  | v :: vs => exact .cons (resolves_sorted v) (resolves_items vs)

theorem resolves_of_mem (ms : Members) {m : String × Value} (hm : m ∈ ms) :
    Resolves m.2 m.2.sorted := by
  match ms with
  | [] => cases hm
  | (k, v) :: ms =>
    rcases List.mem_cons.1 hm with rfl | hm
    · exact resolves_sorted v
    · exact resolves_of_mem ms hm

end

theorem Members.inOrder_of_ascending {ms : Members} (h : Ascending (ms.map Prod.fst)) :
    ms.InOrder := by
  rw [Ascending, List.map_map] at h
  refine (List.pairwise_map.1 h).imp fun {m n} hlt => ?_
  rcases lt_trichotomy m.1 n.1 with hlt' | heq | hgt
  · exact hlt'
  · rw [Function.comp, Function.comp, heq] at hlt
    exact absurd hlt (List.lt_irrefl _)
  · exact absurd hlt (List.lt_asymm (Utf8.encode_lt hgt))

mutual

/-- Nothing else resolves a value than what is read of it. -/
theorem eq_sorted_of_resolves {v n : Value} (h : Resolves v n) : n = v.sorted := by
  match v with
  | .null => cases h; rfl
  | .bool b => cases h; rfl
  | .number x => cases h; rfl
  | .text t => cases h; rfl
  | .array vs =>
    cases h with
    | array hs => exact congrArg Value.array (eq_sortedItems hs)
  | .object ms =>
    cases h with
    | @object _ ns hascending hkeys hvalues =>
      refine congrArg Value.object ((Members.inOrder_of_ascending hascending).ext
        (Members.inOrder_ofList _) fun k => ?_)
      rw [Members.lookup_ofList, sortedMembers_eq_map, ← List.map_reverse, Members.lookup_map]
      cases hv : ms.reverse.lookup k with
      | none =>
        rw [Members.lookup_eq_none_iff, List.map_reverse, List.mem_reverse, ← hkeys] at hv
        exact Members.lookup_eq_none_iff.2 hv
      | some v =>
        have hmem : (k, v) ∈ ms := List.mem_reverse.1 (Members.mem_of_lookup hv)
        cases hn : ns.lookup k with
        | none =>
          rw [Members.lookup_eq_none_iff, hkeys] at hn
          exact absurd (List.mem_map_of_mem hmem) hn
        | some n => exact congrArg some (eq_sorted_of_mem hmem (hvalues k v n hv hn))

theorem eq_sortedItems {vs ns : List Value} (h : List.Forall₂ Resolves vs ns) :
    ns = sortedItems vs := by
  match vs with
  | [] => cases h; rfl
  | v :: vs =>
    cases h with
    | cons hv hvs => rw [sortedItems, eq_sorted_of_resolves hv, eq_sortedItems hvs]

theorem eq_sorted_of_mem {ms : Members} {m : String × Value} (hm : m ∈ ms) {n : Value}
    (h : Resolves m.2 n) : n = m.2.sorted := by
  match ms with
  | [] => cases hm
  | (k, v) :: ms =>
    rcases List.mem_cons.1 hm with rfl | hm
    · exact eq_sorted_of_resolves h
    · exact eq_sorted_of_mem hm h

end

theorem resolves_iff {v n : Value} : Resolves v n ↔ n = v.sorted := by
  refine ⟨eq_sorted_of_resolves, ?_⟩
  rintro rfl
  exact resolves_sorted v

end Availability.Json
