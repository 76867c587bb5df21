import DriveIntegrity.Integrity.Par2

/-! Sequences of `par2 r` runs on sets without a common target. -/

namespace DriveIntegrity.Integrity

variable {Content : Type}

/-- The sets share no target and list none twice. -/
structure Separate (sets : List (List (Target Content))) : Prop where
  nodup : ∀ s ∈ sets, (s.map Target.path).Nodup
  apart : ∀ s ∈ sets, ∀ s' ∈ sets, ∀ t ∈ s, ∀ t' ∈ s', t.path = t'.path → s = s'

/-- A change no later run takes back: a new file, or a file now holding its stored content. -/
def Altered (sets : List (List (Target Content))) (before after : Drive Content) (q : Text) :
    Prop :=
  after.get? q ≠ none ∧ (before.get? q = none ∨
    ∃ s ∈ sets, ∃ t ∈ s, t.path = q ∧ after.get? q = some t.stored ∧ before.get? q ≠ some t.stored)

variable {sets : List (List (Target Content))} {drive : Drive Content} {s : List (Target Content)}

lemma Separate.same_target (hs : Separate sets) (h : s ∈ sets) {t t' : Target Content} (ht : t ∈ s)
    (ht' : t' ∈ s) (he : t.path = t'.path) : t = t' :=
  List.inj_on_of_nodup_map (hs.nodup s h) ht ht' he

lemma Altered.ne {before after : Drive Content} {q : Text} (h : Altered sets before after q) :
    after.get? q ≠ before.get? q := by
  obtain ⟨ho, hb | ⟨_, _, t, _, _, ha, hb⟩⟩ := h
  · rwa [hb]
  · rw [ha]
    exact hb.symm

variable [DecidableEq Content] {enough : List (Target Content) → List (Option Content) → Bool}
  {P : Text → Prop}

/-- A `par2 r` run on the set leaves the files of `P` alone. -/
def Spared (P : Text → Prop) (drive : Drive Content) (set : List (Target Content)) : Prop :=
  (∀ t ∈ set, P t.path → drive.get? t.path = some t.stored) ∧ ∀ q ∈ backups drive set, ¬ P q

lemma par2Repair_intact (hs : Separate sets) (h : s ∈ sets) {s' : List (Target Content)}
    (h' : s' ∈ sets) {t : Target Content} (ht : t ∈ s') (hi : drive.get? t.path = some t.stored) :
    (par2Repair enough drive s).get? t.path = some t.stored := by
  rw [← hi]
  have hsame : ∀ u ∈ s, u.path = t.path → drive.get? t.path = some u.stored := by
    intro u hu he
    obtain rfl := hs.apart s h s' h' u hu t ht he
    rw [hs.same_target h hu ht he, hi]
  apply par2Repair_other (hs.nodup s h) hsame
  intro hb
  rcases backup_free hb with hn | ⟨u, hu, he, hne⟩
  · rw [hi] at hn
    cases hn
  · exact hne (hsame u hu he)

lemma Altered.step (hs : Separate sets) (h : s ∈ sets) {before after : Drive Content} {q : Text}
    (ha : Altered sets before after q) : Altered sets before (par2Repair enough after s) q := by
  obtain ⟨ho, hb | ⟨s', h', t, ht, rfl, hst, hb⟩⟩ := ha
  · exact ⟨par2Repair_occupied (hs.nodup s h) ho, Or.inl hb⟩
  · exact ⟨par2Repair_occupied (hs.nodup s h) ho,
      Or.inr ⟨s', h', t, ht, rfl, par2Repair_intact hs h h' ht hst, hb⟩⟩

lemma Altered.run (hs : Separate sets) {calls : List (List (Target Content))} (hc : calls ⊆ sets)
    {before after : Drive Content} {q : Text} (ha : Altered sets before after q) :
    Altered sets before (calls.foldl (par2Repair enough) after) q := by
  induction calls generalizing after with
  | nil => exact ha
  | cons s calls ih =>
    rw [List.cons_subset] at hc
    exact ih hc.2 (ha.step hs hc.1)

lemma par2Repair_spared (hs : Separate sets) (h : s ∈ sets) (hp : Spared P drive s)
    {q : Text} (hq : P q) :
    (par2Repair enough drive s).get? q = drive.get? q := by
  apply par2Repair_other (hs.nodup s h)
  · rintro t ht rfl
    exact hp.1 t ht hq
  · exact fun hb => hp.2 q hb hq

lemma par2Repair_alters (hs : Separate sets) (h : s ∈ sets)
    (he : enough s (targetContents drive s) = true)
    (hp : ¬ Spared P drive s) : ∃ q, P q ∧ Altered sets drive (par2Repair enough drive s) q := by
  by_cases hint : ∀ t ∈ s, P t.path → drive.get? t.path = some t.stored
  · have hb : ∃ q ∈ backups drive s, P q := by
      by_contra hnone
      exact hp ⟨hint, fun q hq hP => hnone ⟨q, hq, hP⟩⟩
    obtain ⟨q, hq, hP⟩ := hb
    refine ⟨q, hP, par2Repair_backup (hs.nodup s h) he hq, ?_⟩
    rcases backup_free hq with hn | ⟨t, ht, rfl, hne⟩
    · exact Or.inl hn
    · exact absurd (hint t ht hP) hne
  · have hbad : ∃ t ∈ s, P t.path ∧ drive.get? t.path ≠ some t.stored := by
      by_contra hnone
      apply hint
      intro t ht hP
      by_contra hne
      exact hnone ⟨t, ht, hP, hne⟩
    obtain ⟨t, ht, hP, hne⟩ := hbad
    have hst := par2Repair_broken (hs.nodup s h) he ht hne
    exact ⟨t.path, hP, by rw [hst]; simp, Or.inr ⟨s, h, t, ht, rfl, hst, hne⟩⟩

lemma backups_congr {drive' : Drive Content}
    (hc : ∀ t ∈ s, drive'.get? t.path = drive.get? t.path)
    (hb : ∀ t ∈ s, ∀ k, drive'.get? (backupName t.path k) = none ↔
      drive.get? (backupName t.path k) = none) :
    backups drive' s = backups drive s := by
  have hf : s.filter (damaged drive') = s.filter (damaged drive) := by
    apply List.filter_congr
    intro t ht
    rw [damaged, damaged, intact, intact, hc t ht]
  rw [backups, backups, hf, takenNames, takenNames]
  apply List.map_congr_left
  intro t ht
  apply freeName_congr
  intro k
  rw [get?_without, get?_without]
  split_ifs
  · rfl
  · exact hb t (List.mem_of_mem_filter ht) k

lemma spared_of_intact (h : ∀ t ∈ s, drive.get? t.path = some t.stored) : Spared P drive s := by
  have hf : s.filter (damaged drive) = [] := by
    apply List.filter_eq_nil_iff.mpr
    intro t ht
    simp [damaged, intact, h t ht]
  refine ⟨fun t ht _ => h t ht, ?_⟩
  rw [backups, hf]
  simp [takenNames]

lemma spared_after (hs : Separate sets) (h : s ∈ sets) {s' : List (Target Content)} (h' : s' ∈ sets)
    (hcor : ∀ s ∈ sets, ∀ t ∈ s, ¬ P t.path → drive.get? t.path ≠ none)
    (hok : enough s (targetContents drive s) = true → Spared P drive s) :
    (enough s' (targetContents (par2Repair enough drive s) s') = true →
        Spared P (par2Repair enough drive s) s') ↔
      (enough s' (targetContents drive s') = true → Spared P drive s') := by
  by_cases he : enough s (targetContents drive s) = true
  swap
  · rw [par2Repair, if_neg he]
  have hsp := hok he
  by_cases hss : s' = s
  · subst hss
    have hi : ∀ t ∈ s', (par2Repair enough drive s').get? t.path = some t.stored := by
      intro t ht
      by_cases hb : drive.get? t.path = some t.stored
      · exact par2Repair_intact hs h h' ht hb
      · exact par2Repair_broken (hs.nodup s' h) he ht hb
    exact ⟨fun _ => hok, fun _ _ => spared_of_intact hi⟩
  · have hapart : ∀ t ∈ s', ∀ u ∈ s, u.path ≠ t.path :=
      fun t ht u hu hp => hss (hs.apart s h s' h' u hu t ht hp).symm
    have hcont : ∀ t ∈ s', (par2Repair enough drive s).get? t.path = drive.get? t.path := by
      intro t ht
      apply par2Repair_other (hs.nodup s h)
      · exact fun u hu hp => (hapart t ht u hu hp).elim
      · intro hb
        rcases backup_free hb with hn | ⟨u, hu, hp, _⟩
        · exact hcor s' h' t ht (hsp.2 _ hb) hn
        · exact hapart t ht u hu hp
    have hocc : ∀ t ∈ s', ∀ k, (par2Repair enough drive s).get? (backupName t.path k) = none ↔
        drive.get? (backupName t.path k) = none := by
      intro t ht k
      refine ⟨fun hn => ?_, fun hn => ?_⟩
      · by_contra ho
        exact par2Repair_occupied (hs.nodup s h) ho hn
      · rw [par2Repair_other (hs.nodup s h), hn]
        · intro u hu hp
          by_contra hne
          by_cases hP : P u.path
          · exact hne (hp ▸ hsp.1 u hu hP)
          · exact hcor s h u hu hP (hp ▸ hn)
        · intro hb
          obtain ⟨u, hu, he'⟩ := List.mem_map.mp hb
          exact hapart t ht u (List.mem_of_mem_filter hu) (backupName_inj he').1
    have htc : targetContents (par2Repair enough drive s) s' = targetContents drive s' :=
      List.map_congr_left hcont
    have hsparedEq : Spared P (par2Repair enough drive s) s' ↔ Spared P drive s' := by
      rw [Spared, Spared, backups_congr hcont hocc]
      apply and_congr_left'
      exact forall₂_congr (fun t ht => by rw [hcont t ht])
    rw [htc, hsparedEq]

/-- A sequence of runs spares the files of `P` exactly when each run would from the start. -/
lemma runs_spare_iff (hs : Separate sets) {calls : List (List (Target Content))} (hc : calls ⊆ sets)
    (hcor : ∀ s ∈ sets, ∀ t ∈ s, ¬ P t.path → drive.get? t.path ≠ none) :
    (∀ q, P q → (calls.foldl (par2Repair enough) drive).get? q = drive.get? q) ↔
      ∀ s ∈ calls, enough s (targetContents drive s) = true → Spared P drive s := by
  induction calls generalizing drive with
  | nil => simp
  | cons s calls ih =>
    rw [List.cons_subset] at hc
    obtain ⟨h, hc⟩ := hc
    by_cases hok : enough s (targetContents drive s) = true → Spared P drive s
    · have hsame : ∀ q, P q → (par2Repair enough drive s).get? q = drive.get? q := by
        intro q hq
        by_cases he : enough s (targetContents drive s) = true
        · exact par2Repair_spared hs h (hok he) hq
        · rw [par2Repair, if_neg he]
      have hcor' : ∀ s' ∈ sets, ∀ t ∈ s', ¬ P t.path →
          (par2Repair enough drive s).get? t.path ≠ none :=
        fun s' h' t ht hP => par2Repair_occupied (hs.nodup s h) (hcor s' h' t ht hP)
      have hrest := @ih (par2Repair enough drive s) hc hcor'
      rw [List.foldl_cons, List.forall_mem_cons]
      constructor
      · intro hall
        refine ⟨hok, fun s' hm => ?_⟩
        rw [← spared_after hs h (hc hm) hcor hok]
        exact hrest.mp (fun q hq => by rw [hall q hq, hsame q hq]) s' hm
      · rintro ⟨_, hall⟩ q hq
        rw [hrest.mpr _ q hq, hsame q hq]
        intro s' hm
        rw [spared_after hs h (hc hm) hcor hok]
        exact hall s' hm
    · obtain ⟨he, hp⟩ := Classical.not_imp.mp hok
      obtain ⟨q, hq, ha⟩ := par2Repair_alters hs h he hp
      constructor
      · intro hall
        exact absurd (hall q hq) (ha.run hs hc).ne
      · intro hall
        exact absurd (hall s List.mem_cons_self) hok

end DriveIntegrity.Integrity
