import DriveIntegrity.Probe.ParseSmart

/-! The attributes that `ParseSmart` finds in a report. -/

namespace DriveIntegrity.Probe

open Integrity (Text)

section Landing

instance (digits : Text) (l : Line) : Decidable (l.Hit digits) :=
  decidable_of_iff (l.key = some "id".toList ∧
    (match l.item with | .bare t => decide (digits <+: t) | .str _ => false) = true) (by
    unfold Line.Hit
    cases l.item <;> simp)

/-- The raw value of the attribute, none if the table has no such attribute. -/
def Report.rawOf (r : Report) (id : ℕ) : Option ℕ :=
  (r.table.find? (fun a => decide (a.id = id))).map Attribute.raw

/-- The raw value at which the lookup of an attribute arrives. A number in front of the table that
begins with the digits leads to the first attribute, otherwise it is the first attribute whose
number begins with them. -/
def Report.landing (r : Report) (id : ℕ) : Option ℕ :=
  if ∃ l ∈ r.before, l.1.Hit (decimal id) then r.table.head?.map Attribute.raw
  else (r.table.find? (fun a => decide (decimal id <+: decimal a.id))).map Attribute.raw

/-- The lookup arrives at the attribute and its raw value fits, or there is no such attribute and
nothing that fits. -/
def Report.ReadsRight (r : Report) (id : ℕ) : Prop :=
  match r.rawOf id with
  | some raw => r.landing id = some raw ∧ raw < 2 ^ 31
  | none => ∀ raw ∈ r.landing id, 2 ^ 31 ≤ raw

/-- -1 stands for an attribute that is not there. -/
def Report.expected (r : Report) (id : ℕ) : ℤ :=
  match r.rawOf id with
  | some raw => raw
  | none => -1

lemma rawValue_eq_iff (r : Report) (id : ℕ) :
    rawValue (r.landing id) = r.expected id ↔ r.ReadsRight id := by
  unfold Report.expected Report.ReadsRight
  cases r.rawOf id with
  | some raw =>
    cases r.landing id with
    | none => simp [rawValue]
    | some n =>
      simp only [rawValue, Option.some.injEq]
      split_ifs
      · omega
      · rw [false_iff]
        omega
  | none =>
    cases r.landing id with
    | none => simp [rawValue]
    | some n =>
      simp only [rawValue, Option.mem_def, Option.some.injEq, forall_eq']
      split_ifs
      · rw [false_iff]
        omega
      · omega

end Landing

section Lines

variable {id : ℕ} {a : Attribute} {last : Bool} {l : Line} {digits : Text}

lemma bare_other {indent : ℕ} {key : Option Text} {t : Text} {comma : Bool}
    (hk : ∀ k ∈ key, isWord k = true)
    (ht : '"' ∉ t) (hraw : key ≠ some "raw".toList) (hnvme : key ≠ some nvmeLog) :
    Line.Other ⟨indent, key, .bare t, comma⟩ :=
  ⟨valid_bare hk ht, silent_bare hraw, silent_bare hnvme⟩

lemma quote_notMem_decimal (n : ℕ) : '"' ∉ decimal n := by
  intro h
  exact absurd (isDigit_of_mem_decimal h) (by decide)

lemma hit_bare {indent : ℕ} {key : Option Text} {t : Text} {comma : Bool} :
    Line.Hit digits ⟨indent, key, .bare t, comma⟩ ↔ key = some "id".toList ∧ digits <+: t := by
  unfold Line.Hit
  constructor
  · rintro ⟨hk, s, hs, hd⟩
    exact ⟨hk, Item.bare.inj hs ▸ hd⟩
  · rintro ⟨hk, hd⟩
    exact ⟨hk, t, rfl, hd⟩

def Attribute.front (a : Attribute) : List Line :=
  bracket 6 none "\x7b" false :: ⟨8, some "id".toList, .bare (decimal a.id), true⟩ ::
    a.details.map Subtype.val

lemma lines_split (a : Attribute) (last : Bool) :
    a.lines last = a.front ++ rawLines a.raw ++ [a.shown.1, bracket 8 none "\x7d" false,
      bracket 6 none "\x7d" (!last)] := by
  unfold Attribute.lines Attribute.front rawLines
  simp only [List.cons_append, List.append_assoc, List.nil_append]

lemma front_other (a : Attribute) : ∀ l ∈ a.front, l.Other := by
  unfold Attribute.front
  rw [List.forall_mem_cons, List.forall_mem_cons]
  refine ⟨bare_other (by decide) (by decide) (by decide) (by decide),
    bare_other (by decide) (quote_notMem_decimal _) (by decide) (by decide), ?_⟩
  intro l hl
  obtain ⟨d, _, rfl⟩ := List.mem_map.mp hl
  exact d.2.1

lemma lines_valid (a : Attribute) (last : Bool) :
    ∀ l ∈ a.lines last, l.Valid ∧ l.Silent nvmeLog := by
  intro l hl
  rw [lines_split] at hl
  rcases List.mem_append.mp hl with hl | hl
  · rcases List.mem_append.mp hl with hl | hl
    · exact ⟨(front_other a l hl).1, (front_other a l hl).2.2⟩
    · have hraw : ∀ l ∈ rawLines a.raw, l.Valid ∧ l.Silent nvmeLog := by
        unfold rawLines
        simp only [List.forall_mem_cons]
        refine ⟨⟨valid_bare (by decide) (by decide), silent_bare (by decide)⟩,
          ⟨valid_bare (by decide) (quote_notMem_decimal _), silent_bare (by decide)⟩, ?_⟩
        exact fun l hl => absurd hl List.not_mem_nil
      exact hraw l hl
  · have hclose :
        ∀ l ∈ [a.shown.1, bracket 8 none "\x7d" false, bracket 6 none "\x7d" (!last)], l.Other := by
      simp only [List.forall_mem_cons]
      refine ⟨a.shown.2.1, bare_other (by decide) (by decide) (by decide) (by decide),
        bare_other (by simp) (by decide) (by simp) (by simp), ?_⟩
      exact fun l hl => absurd hl List.not_mem_nil
    exact ⟨(hclose l hl).1, (hclose l hl).2.2⟩

lemma lines_hit (hl : l ∈ a.lines last) (hhit : l.Hit digits) : digits <+: decimal a.id := by
  have hkey := hhit.1
  unfold Attribute.lines at hl
  simp only [List.mem_cons, List.mem_append, List.mem_map, List.not_mem_nil, or_false] at hl
  rcases hl with rfl | rfl | ⟨d, _, rfl⟩ | rfl | rfl | rfl | rfl | rfl
  · cases hkey
  · exact (hit_bare.mp hhit).2
  · exact (d.2.2 hkey).elim
  · exact absurd hkey (by decide)
  · exact absurd hkey (show some "value".toList ≠ some "id".toList by decide)
  · exact (a.shown.2.2 hkey).elim
  · cases hkey
  · cases hkey

lemma mem_tableLines {table : List Attribute} (hl : l ∈ tableLines table) :
    ∃ a ∈ table, ∃ last, l ∈ a.lines last := by
  induction table with
  | nil => exact absurd hl List.not_mem_nil
  | cons a rest ih =>
    cases rest with
    | nil => exact ⟨a, List.mem_cons_self, true, hl⟩
    | cons b rest =>
      rcases List.mem_append.mp hl with hl | hl
      · exact ⟨a, List.mem_cons_self, false, hl⟩
      · obtain ⟨c, hc, last, hl⟩ := ih hl
        exact ⟨c, List.mem_cons_of_mem a hc, last, hl⟩

lemma tableLines_append (front : List Attribute) (a : Attribute) (back : List Attribute) :
    ∃ post, tableLines (front ++ a :: back) =
      front.flatMap (Attribute.lines false) ++ (a.front ++ rawLines a.raw ++ post) := by
  induction front with
  | nil =>
    cases back with
    | nil => exact ⟨_, lines_split a true⟩
    | cons b back =>
      refine ⟨[a.shown.1, bracket 8 none "\x7d" false, bracket 6 none "\x7d" true] ++ tableLines
        (b :: back), ?_⟩
      show a.lines false ++ tableLines (b :: back) = _
      rw [lines_split]
      simp only [List.append_assoc, List.flatMap_nil, List.nil_append, Bool.not_false]
  | cons b front ih =>
    obtain ⟨post, h⟩ := ih
    refine ⟨post, ?_⟩
    have hstep : tableLines (b :: (front ++ a :: back)) =
        b.lines false ++ tableLines (front ++ a :: back) := by
      cases front <;> rfl
    rw [List.cons_append, hstep, h, List.flatMap_cons]
    simp only [List.append_assoc]

end Lines

section Reports

variable (r : Report) (id : ℕ)

def Report.header (r : Report) : List Line :=
  [bracket 2 (some "ata_smart_attributes") "\x7b" false,
    ⟨4, some "revision".toList, .bare (decimal r.revision), true⟩,
    bracket 4 (some "table") "[" false]

def Report.footer (r : Report) : List Line :=
  bracket 4 none "]" false :: bracket 2 none "\x7d" (!r.after.isEmpty) :: r.after.map Subtype.val

lemma report_lines :
    r.lines = r.before.map Subtype.val ++ r.header ++ tableLines r.table ++ r.footer := by
  unfold Report.lines Report.header Report.footer
  simp only [List.append_assoc, List.cons_append, List.nil_append]

lemma header_other : ∀ l ∈ r.header, l.Other ∧ l.key ≠ some "id".toList := by
  unfold Report.header
  simp only [List.forall_mem_cons]
  refine ⟨⟨bare_other (by decide) (by decide) (by decide) (by decide), by decide⟩,
    ⟨bare_other (by decide) (quote_notMem_decimal _) (by decide) (by decide), ?_⟩,
    ⟨bare_other (by decide) (by decide) (by decide) (by decide), by decide⟩, ?_⟩
  · show some "revision".toList ≠ some "id".toList
    decide
  · exact fun l hl => absurd hl List.not_mem_nil

lemma before_other : ∀ l ∈ r.before.map Subtype.val, l.Other := by
  intro l hl
  obtain ⟨d, _, rfl⟩ := List.mem_map.mp hl
  exact d.2

lemma footer_other : ∀ l ∈ r.footer, l.Other := by
  unfold Report.footer
  rw [List.forall_mem_cons, List.forall_mem_cons]
  refine ⟨bare_other (by simp) (by decide) (by simp) (by simp),
    bare_other (by simp) (by decide) (by simp) (by simp), ?_⟩
  intro l hl
  obtain ⟨d, _, rfl⟩ := List.mem_map.mp hl
  exact d.2

lemma report_valid : ∀ l ∈ r.lines, l.Valid ∧ l.Silent nvmeLog := by
  intro l hl
  rw [report_lines] at hl
  have hother : l.Other → l.Valid ∧ l.Silent nvmeLog := fun h => ⟨h.1, h.2.2⟩
  rcases List.mem_append.mp hl with hl | hl
  · rcases List.mem_append.mp hl with hl | hl
    · rcases List.mem_append.mp hl with hl | hl
      · exact hother (before_other r l hl)
      · exact hother (header_other r l hl).1
    · obtain ⟨a, _, last, hl⟩ := mem_tableLines hl
      exact lines_valid a last l hl
  · exact hother (footer_other r l hl)

lemma first_hit {digits : Text} {lines : List Line} (h : ∃ l ∈ lines, l.Hit digits) :
    ∃ pre l post, lines = pre ++ l :: post ∧ l.Hit digits ∧ ∀ k ∈ pre, ¬k.Hit digits := by
  obtain ⟨l, hl, hhit⟩ := h
  have hsome : (lines.find? (fun l => decide (l.Hit digits))).isSome := by
    rw [List.find?_isSome]
    exact ⟨l, hl, decide_eq_true hhit⟩
  obtain ⟨l, hfind⟩ := Option.isSome_iff_exists.mp hsome
  obtain ⟨hp, pre, post, hsplit, hpre⟩ := List.find?_eq_some_iff_append.mp hfind
  refine ⟨pre, l, post, hsplit, of_decide_eq_true hp, ?_⟩
  intro k hk hhit
  simpa [hhit] using hpre k hk

lemma text_eq (lines : List Line) (h : r.lines = lines) :
    r.text = "\x7b\n".toList ++ (render lines ++ "\x7d\n".toList) := by
  unfold Report.text
  rw [h, List.append_assoc]
  rfl

lemma quiet_of_other {lines : List Line} (h : ∀ l ∈ lines, l.Other) :
    ∀ l ∈ lines, l.Valid ∧ l.Silent "raw".toList :=
  fun l hl => ⟨(h l hl).1, (h l hl).2.1⟩

variable {r id}

lemma getRaw_before (h : ∃ l ∈ r.before.map Subtype.val, l.Hit (decimal id)) :
    getRaw r.text id = rawValue (r.table.head?.map Attribute.raw) := by
  obtain ⟨pre, l, mid, hsplit, hhit, hpre⟩ := first_hit h
  have hother : ∀ k ∈ pre ++ l :: mid, k.Other := hsplit ▸ before_other r
  have hskipped : ∀ k ∈ pre, k.Valid ∧ ¬k.Hit (decimal id) :=
    fun k hk => ⟨(hother k (List.mem_append_left _ hk)).1, hpre k hk⟩
  have hl : l.Valid := (hother l (List.mem_append_right pre List.mem_cons_self)).1
  have hmid : ∀ k ∈ mid, k.Other := fun k hk =>
    hother k (List.mem_append_right pre (List.mem_cons_of_mem l hk))
  have hheader : ∀ k ∈ r.header, k.Other := fun k hk => (header_other r k hk).1
  have hlines := report_lines r
  cases htable : r.table with
  | nil =>
    rw [text_eq r (pre ++ l :: (mid ++ r.header ++ r.footer))
      (by rw [hlines, htable, hsplit]; simp [tableLines])]
    apply getRaw_lost (by decide) (by decide) hskipped hl hhit
    apply quiet_of_other
    simp only [List.forall_mem_append]
    exact ⟨⟨hmid, hheader⟩, footer_other r⟩
  | cons a rest =>
    obtain ⟨post, htail⟩ := tableLines_append [] a rest
    rw [List.nil_append, List.flatMap_nil, List.nil_append] at htail
    rw [text_eq r
      (pre ++ l :: ((mid ++ r.header ++ a.front) ++ rawLines a.raw ++ (post ++ r.footer)))
      (by rw [hlines, htable, hsplit, htail]; simp only [List.append_assoc, List.cons_append])]
    apply getRaw_found (by decide) hskipped hl hhit
    apply quiet_of_other
    simp only [List.forall_mem_append]
    exact ⟨⟨hmid, hheader⟩, front_other a⟩

lemma getRaw_behind (hbefore : ∀ l ∈ r.before.map Subtype.val, ¬l.Hit (decimal id))
    (htable : ∀ a ∈ r.table, ¬decimal id <+: decimal a.id) : getRaw r.text id = -1 := by
  have hfront : ∀ l ∈ r.before.map Subtype.val ++ r.header ++ tableLines r.table, l.Valid ∧
      ¬l.Hit (decimal id) := by
    simp only [List.forall_mem_append]
    refine ⟨⟨fun l hl => ⟨(before_other r l hl).1, hbefore l hl⟩,
      fun l hl => ⟨(header_other r l hl).1.1, fun hhit => (header_other r l hl).2 hhit.1⟩⟩, ?_⟩
    intro l hl
    obtain ⟨a, ha, last, hl⟩ := mem_tableLines hl
    exact ⟨(lines_valid a last l hl).1, fun hhit => htable a ha (lines_hit hl hhit)⟩
  by_cases h : ∃ l ∈ r.footer, l.Hit (decimal id)
  · obtain ⟨pre, l, post, hsplit, hhit, hpre⟩ := first_hit h
    have hother : ∀ k ∈ pre ++ l :: post, k.Other := hsplit ▸ footer_other r
    rw [text_eq r ((r.before.map Subtype.val ++ r.header ++ tableLines r.table ++ pre) ++ l :: post)
      (by rw [report_lines, hsplit]; simp only [List.append_assoc])]
    apply getRaw_lost (by decide) (by decide) _ _ hhit
    · apply quiet_of_other
      exact fun k hk => hother k (List.mem_append_right pre (List.mem_cons_of_mem l hk))
    · rw [List.forall_mem_append]
      exact ⟨hfront, fun k hk => ⟨(hother k (List.mem_append_left _ hk)).1, hpre k hk⟩⟩
    · exact (hother l (List.mem_append_right pre List.mem_cons_self)).1
  · push Not at h
    rw [text_eq r _ (report_lines r)]
    apply getRaw_missed (by decide) (by decide)
    rw [List.forall_mem_append]
    exact ⟨hfront, fun l hl => ⟨(footer_other r l hl).1, h l hl⟩⟩

lemma getRaw_table {a : Attribute} (hbefore : ∀ l ∈ r.before.map Subtype.val, ¬l.Hit (decimal id))
    (h : r.table.find? (fun a => decide (decimal id <+: decimal a.id)) = some a) :
    getRaw r.text id = rawValue (some a.raw) := by
  obtain ⟨hp, front, back, hsplit, hfront⟩ := List.find?_eq_some_iff_append.mp h
  obtain ⟨post, htail⟩ := tableLines_append front a back
  have hhit : Line.Hit (decimal id) ⟨8, some "id".toList, .bare (decimal a.id), true⟩ :=
    hit_bare.mpr ⟨rfl, of_decide_eq_true hp⟩
  have hopen : (bracket 6 none "\x7b" false).Other := front_other a _ List.mem_cons_self
  rw [Attribute.front] at htail
  rw [text_eq r
    ((r.before.map Subtype.val ++ r.header ++ front.flatMap
      (Attribute.lines false) ++ [bracket 6 none "\x7b" false]) ++
      ⟨8, some "id".toList, .bare (decimal a.id), true⟩ ::
        (a.details.map Subtype.val ++ rawLines a.raw ++ (post ++ r.footer)))
    (by rw [report_lines, hsplit, htail]; simp only [List.append_assoc,
      List.cons_append, List.nil_append])]
  apply getRaw_found (by decide) _ _ hhit
  · apply quiet_of_other
    exact fun l hl => front_other a l (List.mem_cons_of_mem _ (List.mem_cons_of_mem _ hl))
  · simp only [List.forall_mem_append]
    refine ⟨⟨⟨fun l hl => ⟨(before_other r l hl).1, hbefore l hl⟩,
      fun l hl => ⟨(header_other r l hl).1.1, fun hhit => (header_other r l hl).2 hhit.1⟩⟩, ?_⟩, ?_⟩
    · intro l hl
      obtain ⟨b, hb, hl⟩ := List.mem_flatMap.mp hl
      refine ⟨(lines_valid b false l hl).1, ?_⟩
      intro hhit
      simpa [lines_hit hl hhit] using hfront b hb
    · intro l hl
      rw [List.mem_singleton.mp hl]
      exact ⟨hopen.1, fun hhit => Option.some_ne_none _ hhit.1.symm⟩
  · exact (front_other a _ (List.mem_cons_of_mem _ List.mem_cons_self)).1

lemma getRaw_text : getRaw r.text id = rawValue (r.landing id) := by
  unfold Report.landing
  have hmap : (∃ l ∈ r.before, l.1.Hit (decimal id)) ↔ ∃ l ∈ r.before.map Subtype.val,
      l.Hit (decimal id) := by
    simp only [List.mem_map, exists_exists_and_eq_and]
  by_cases hbefore : ∃ l ∈ r.before, l.1.Hit (decimal id)
  · rw [if_pos hbefore]
    exact getRaw_before (hmap.mp hbefore)
  · rw [if_neg hbefore]
    rw [hmap] at hbefore
    push Not at hbefore
    cases h : r.table.find? (fun a => decide (decimal id <+: decimal a.id)) with
    | none =>
      apply getRaw_behind hbefore
      simpa using h
    | some a => exact getRaw_table hbefore h

lemma text_long : ¬r.text.length < 50 := by
  have hheader : 50 ≤ (render r.header).length := by
    unfold Report.header
    simp only [render_cons, List.length_append]
    have hopen : (bracket 2 (some "ata_smart_attributes") "\x7b" false).body.length = 26 := rfl
    have htable : (bracket 4 (some "table") "[" false).body.length = 11 := rfl
    have hkey : (quoted "revision".toList ++ ": ".toList).length = 12 := rfl
    unfold Line.body at hopen htable
    unfold Line.body
    simp only [List.length_append, List.length_replicate, Line.label] at hopen htable hkey ⊢
    simp only [bracket] at *
    omega
  rw [text_eq r _ (report_lines r)]
  simp only [render_append, List.length_append]
  omega

lemma no_nvmeLog : findText (quoted nvmeLog) r.text = none := by
  have hword : isWord nvmeLog = true := by decide
  have hplain : ∀ {t : Text}, '"' ∉ t → Skips (quoted nvmeLog) t := by
    intro t ht
    rw [← List.append_nil (quoted nvmeLog)]
    exact skips_unquoted ht
  have hskip : Skips (quoted nvmeLog) r.text := by
    rw [text_eq r _ rfl]
    exact (hplain (by decide)).append
      ((skips_render_word hword (report_valid r)).append (hplain (by decide)))
  exact hskip.findText_eq_none (List.cons_ne_nil _ _)

lemma parseSmart_attributes (sd : SmartData) :
    (parseSmart r.text sd).reallocated = getRaw r.text 5 ∧
    (parseSmart r.text sd).pending = getRaw r.text 197 ∧
      (parseSmart r.text sd).offlineUnc = getRaw r.text 198 ∧
      (parseSmart r.text sd).loadCycles = getRaw r.text 193 := by
  unfold parseSmart
  rw [if_neg text_long, no_nvmeLog]
  exact ⟨rfl, rfl, rfl, rfl⟩

/-- The four attributes are read right exactly where each lookup arrives at its own attribute. -/
theorem parseSmart_reads_iff (r : Report) (sd : SmartData) :
    ((parseSmart r.text sd).reallocated = r.expected 5 ∧
      (parseSmart r.text sd).pending = r.expected 197 ∧
      (parseSmart r.text sd).offlineUnc = r.expected 198 ∧
      (parseSmart r.text sd).loadCycles = r.expected 193) ↔
      ∀ id ∈ [5, 197, 198, 193], r.ReadsRight id := by
  obtain ⟨hreallocated, hpending, hoffline, hcycles⟩ := parseSmart_attributes (r := r) sd
  rw [hreallocated, hpending, hoffline, hcycles]
  simp only [getRaw_text, rawValue_eq_iff, List.forall_mem_cons, List.not_mem_nil, false_implies,
    implies_true, and_true]

end Reports

section Misread

/-- A world wide name whose number begins with a 5. -/
def wwn : List Line :=
  [bracket 2 (some "wwn") "\x7b" false, ⟨4, some "naa".toList, .bare "5".toList, true⟩,
    ⟨4, some "id".toList, .bare "5123456789".toList, false⟩, bracket 2 none "\x7d" true]

lemma wwn_other : ∀ l ∈ wwn, l.Other := by
  unfold wwn
  simp only [List.forall_mem_cons]
  refine ⟨bare_other (by decide) (by decide) (by decide) (by decide),
    bare_other (by decide) (by decide) (by decide) (by decide),
    bare_other (by decide) (by decide) (by decide) (by decide),
    bare_other (by simp) (by decide) (by simp) (by simp), ?_⟩
  exact fun l hl => absurd hl List.not_mem_nil

def shownLine : Line := ⟨10, some "string".toList, .str "0".toList, false⟩

lemma shownLine_detail : shownLine.Other ∧ shownLine.key ≠ some "id".toList := by
  have hvalid : shownLine.Valid := ⟨by decide, (by decide : escaped "0".toList = true)⟩
  have hsilent : ∀ word, some "string".toList ≠ some word → ¬ '"' :: word <:+ '"' :: "0".toList →
      shownLine.Silent word :=
    fun word hk hs => ⟨hk, fun t ht => Item.str.inj ht ▸ hs⟩
  exact ⟨⟨hvalid, hsilent _ (by decide) (by decide), hsilent _ (by decide) (by decide)⟩,
    (by decide : some "string".toList ≠ some "id".toList)⟩

lemma range_one : 1 ≤ 1 ∧ 1 ≤ 255 := by decide

lemma range_five : 1 ≤ 5 ∧ 5 ≤ 255 := by decide

lemma seven_fits : 7 < 2 ^ 48 := by norm_num

lemma zero_fits : 0 < 2 ^ 48 := by norm_num

def misreadTable : List Attribute :=
  [⟨1, [], 7, ⟨shownLine, shownLine_detail⟩, range_one, seven_fits⟩,
    ⟨5, [], 0, ⟨shownLine, shownLine_detail⟩, range_five, zero_fits⟩]

lemma misreadTable_distinct : (misreadTable.map Attribute.id).Nodup := by decide

def misread : Report := ⟨wwn.attachWith _ wwn_other, 16, misreadTable, [], misreadTable_distinct⟩

/-- The number of the world wide name leads to the error rate of the first attribute. -/
theorem parseSmart_misreads :
    (parseSmart misread.text {}).reallocated = 7 ∧ misread.expected 5 = 0 := by
  have hlanding : misread.landing 5 = some 7 := by decide
  obtain ⟨hreallocated, _⟩ := parseSmart_attributes (r := misread) {}
  rw [hreallocated, getRaw_text, hlanding]
  exact ⟨rfl, by decide⟩

end Misread

end DriveIntegrity.Probe
