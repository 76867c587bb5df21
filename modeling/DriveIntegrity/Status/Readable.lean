import DriveIntegrity.Library.XmlRoundTrip
import DriveIntegrity.Status.Update

/-! When the status file is well-formed XML. -/

namespace DriveIntegrity.Status

open Integrity (Text)
open XmlNode (selectSingleNode innerText)

section MapM

variable {α β : Type} {f : α → Option β}

lemma mapM_isSome {as : List α} : (as.mapM f).isSome = true ↔ ∀ a ∈ as, (f a).isSome = true := by
  induction as with
  | nil => simp
  | cons a as ih =>
    rw [List.mapM_cons, List.forall_mem_cons, ← ih]
    cases f a with
    | none => simp
    | some b => cases as.mapM f <;> simp

lemma mem_of_mapM {as : List α} {bs : List β} (h : as.mapM f = some bs) {b : β} (hb : b ∈ bs) :
    ∃ a ∈ as, f a = some b := by
  induction as generalizing bs with
  | nil =>
    rw [List.mapM_nil] at h
    cases h
    exact absurd hb List.not_mem_nil
  | cons a as ih =>
    rw [List.mapM_cons] at h
    obtain ⟨c, hc, h⟩ := Option.bind_eq_some_iff.mp h
    obtain ⟨cs, hcs, h⟩ := Option.bind_eq_some_iff.mp h
    cases h
    rcases List.mem_cons.mp hb with rfl | hb
    · exact ⟨a, List.mem_cons_self, hc⟩
    · obtain ⟨a', ha', he⟩ := ih hcs hb
      exact ⟨a', List.mem_cons_of_mem a ha', he⟩

end MapM

section Saved

lemma xmlText_leafValue {raw : Text} {nodes : List XmlNode} (h : charsNode raw = some nodes) :
    XmlText (leafValue nodes) := by
  have hnil : XmlText [] := fun _ hc => absurd hc List.not_mem_nil
  unfold charsNode at h
  split_ifs at h
  · rw [← Option.some.inj h]
    exact hnil
  · obtain ⟨value, hv, rfl⟩ := Option.map_eq_some_iff.mp h
    exact xmlText_decodeChars hv

lemma Leaf.saved_dom (l : Leaf) (h : l.dom.isSome = true) : l.saved.dom.isSome = true := by
  obtain ⟨e, he⟩ := Option.isSome_iff_exists.mp h
  obtain ⟨nodes, hn, rfl⟩ := Option.map_eq_some_iff.mp he
  change ((charsNode (savedText 2 (leafValue ((charsNode l.raw).getD [])))).map _).isSome = true
  rw [Option.isSome_map, hn, Option.getD_some]
  exact charsNode_savedText (xmlText_leafValue hn) 2

lemma Section.dom_isSome (s : Section) :
    s.dom.isSome = true ↔ ∀ l ∈ s.leaves, l.dom.isSome = true := by
  rw [Section.dom, Option.isSome_map, mapM_isSome]

lemma Section.saved_dom (s : Section) (h : s.dom.isSome = true) : s.saved.dom.isSome = true := by
  rw [Section.dom_isSome] at h ⊢
  exact List.forall_mem_map.mpr (fun l hl => l.saved_dom (h l hl))

lemma innerText_leafNode (e : Text × List XmlNode) : innerText (leafNode e) = leafValue e.2 := by
  obtain ⟨tag, nodes⟩ := e
  unfold leafNode innerText leafValue
  split <;> simp_all

def Record.Readable (r : Record) : Prop := (r.hardware.mapM Section.dom).isSome = true

lemma xmlText_probedHealth {ss : List Section} {ds : List DomSection}
    (h : ss.mapM Section.dom = some ds) :
    XmlText (probedHealth ds) := by
  have hnil : XmlText [] := fun _ hc => absurd hc List.not_mem_nil
  unfold probedHealth healthStatus
  cases hv : selectSingleNode (rootNode ds) "HardwareVitals".toList with
  | none =>
    unfold XmlText
    decide
  | some vitals =>
    obtain ⟨d, hd, rfl⟩ := List.mem_map.mp (List.mem_of_find?_eq_some hv)
    change XmlText
      (((selectSingleNode (sectionNode d) "HealthRating".toList).map innerText).getD [])
    cases hr : selectSingleNode (sectionNode d) "HealthRating".toList with
    | none => exact hnil
    | some rating =>
      obtain ⟨e, he, rfl⟩ := List.mem_map.mp (List.mem_of_find?_eq_some hr)
      obtain ⟨s, _, hs⟩ := mem_of_mapM h hd
      obtain ⟨leaves, hl, rfl⟩ := Option.map_eq_some_iff.mp hs
      obtain ⟨l, _, hle⟩ := mem_of_mapM hl he
      obtain ⟨nodes, hn, rfl⟩ := Option.map_eq_some_iff.mp hle
      change XmlText (innerText (leafNode (l.tag, nodes)))
      rw [innerText_leafNode]
      exact xmlText_leafValue hn

variable {r : Record}

lemma Record.checked_readable (h : r.Readable) (now : LocalTime) (filesChecked : ℕ)
    (corList : List Text) :
    (r.checked now filesChecked corList).Readable := by
  unfold Readable at h ⊢
  rw [mapM_isSome] at h ⊢
  exact List.forall_mem_map.mpr (fun s hs => s.saved_dom (h s hs))

lemma Record.checked_legible (h : r.Readable) (now : LocalTime) (filesChecked : ℕ)
    (corList : List Text) :
    (r.checked now filesChecked corList).Legible := by
  obtain ⟨ds, hds⟩ := Option.isSome_iff_exists.mp h
  intro m hm
  obtain rfl := Option.some.inj hm
  change (charsNode (savedText 2 (probedHealth (probedDom r)))).isSome = true
  rw [probedDom, hds, Option.getD_some]
  exact charsNode_savedText (xmlText_probedHealth hds) 2

end Saved

section Probe

def DriveStats.written (s : DriveStats) : List Text :=
  [xmlEscape s.model, xmlEscape s.serial, s.interface, s.tech, s.fsType, s.totalGB, s.usedGB,
    s.freeGB, s.hours, s.temp, s.reallocated, s.health]

def DriveStats.Readable (s : DriveStats) : Prop := ∀ t ∈ s.written, (charsNode t).isSome = true

instance (s : DriveStats) : Decidable s.Readable :=
  inferInstanceAs (Decidable (∀ t ∈ s.written, (charsNode t).isSome = true))

lemma Leaf.dom_isSome (l : Leaf) : l.dom.isSome = (charsNode l.raw).isSome := by
    rw [Leaf.dom, Option.isSome_map]

lemma probeSections_isSome (now : LocalTime) (s : DriveStats) (h : s.Clean) :
    ((probeSections now s h).mapM Section.dom).isSome = true ↔ s.Readable := by
  have hnow : (charsNode now.text).isSome = true := by
    rw [charsNode_value ⟨now.text, isValue_time now⟩]
    rfl
  have hallowed :
      (charsNode (if s.isSystemDrive then "False".toList else "True".toList)).isSome = true := by
    split_ifs <;> decide
  have hnotes : (charsNode (if s.isSystemDrive then "System Drive Protection Active".toList
      else "Standard Drive".toList)).isSome = true := by
    split_ifs <;> decide
  unfold probeSections
  rw [mapM_isSome]
  simp only [List.forall_mem_cons, Section.dom_isSome, Leaf.dom_isSome, valueLeaf, hnow, hallowed,
    hnotes, DriveStats.Readable, DriveStats.written, List.not_mem_nil, false_imp_iff, implies_true,
    and_true, true_and, and_assoc]

lemma probed_readable_iff (r : Record) (now : LocalTime) (s : DriveStats) (h : s.Clean) :
    (r.probed now s h).Readable ↔ s.Readable := probeSections_isSome now s h

end Probe

end DriveIntegrity.Status
