import DriveIntegrity.Status.Record

/-! The menu's reading of the status file, line by line. -/

namespace DriveIntegrity.Status

open Integrity (Text)

inductive Block
  | smart
  | file
  | surf
  deriving DecidableEq

/-- The variables `F_HEALTH` and `F_DATE`. -/
structure FilePanel where
  health : Text
  date : Text
  deriving DecidableEq

/-- The variables `S_HEALTH`, `S_DATE`, `S_STAB`, `S_SPEED` and `S_COV`. -/
structure SurfacePanel where
  health : Text
  date : Text
  stab : Text
  speed : Text
  cov : Text
  deriving DecidableEq

structure Panel where
  inBlock : Option Block
  smartStatus : Text
  file : FilePanel
  surface : SurfacePanel

section Reader

/-- The substrings of a line between the characters `>` and `<`. -/
def cmdTokens (line : Text) : List Text :=
  (line.splitOnP (fun c => decide (c = '>' ∨ c = '<'))).filter (fun t => decide (t ≠ []))

def enterBlock (a : Text) (inBlock : Option Block) : Option Block :=
  let inBlock := if a = "SmartHealthStatus".toList then some .smart else inBlock
  let inBlock := if a = "FileIntegrityScan".toList then some .file else inBlock
  let inBlock := if a = "SurfaceScanInfo".toList then some .surf else inBlock
  if a = "DriveBabySitter".toList then none else inBlock

def setSmart (a b : Text) (p : Panel) : Panel :=
  if a = "SmartStatus".toList then { p with smartStatus := b } else p

def setFile (a b : Text) (v : FilePanel) : FilePanel :=
  let v := if a = "IntegrityGrade".toList then { v with health := b } else v
  if a = "LastScanDate".toList then { v with date := b } else v

def setSurface (a b : Text) (v : SurfacePanel) : SurfacePanel :=
  let v := if a = "SurfaceGrade".toList then { v with health := b } else v
  let v := if a = "SurfaceScanDate".toList then { v with date := b } else v
  let v := if a = "StabilityScore".toList then { v with stab := b } else v
  let v := if a = "AvgReadSpeed".toList then { v with speed := b } else v
  if a = "ScanCoverage".toList then { v with cov := b } else v

def assign (a b : Text) (p : Panel) : Panel :=
  match p.inBlock with
  | some .smart => setSmart a b p
  | some .file => { p with file := setFile a b p.file }
  | some .surf => { p with surface := setSurface a b p.surface }
  | none => p

/-- The body of `for /f "tokens=2,3 delims=><"`; lines without a second token and lines that begin
with `;` are skipped. -/
def loadLine (p : Panel) (line : Text) : Panel :=
  match cmdTokens line with
  | first :: a :: rest =>
    if first.head? = some ';' then p
    else assign a (rest.headD []) { p with inBlock := enterBlock a p.inBlock }
  | _ => p

def unscanned : Panel where
  inBlock := none
  smartStatus := "Unknown".toList
  file := ⟨"Unscanned".toList, "Never".toList⟩
  surface := ⟨"Unscanned".toList, "Never".toList, "--".toList, "--".toList, "--".toList⟩

def loadText (t : Text) (p : Panel) : Panel := (t.splitOn '\n').foldl loadLine p

/-- `LOAD_DATA`, from the sections on. -/
def loadData (statusXml : Option Text) : Panel :=
  match statusXml with
  | some content => loadText content unscanned
  | none => unscanned

end Reader

section Tokens

def piece (a : Text) : List Text := if a = [] then [] else [a]

lemma not_delim {a : Text} (h : NoAngle a) : ∀ c ∈ a, decide (c = '>' ∨ c = '<') = false := by
  intro c hc
  have := h c hc
  simp [this.1, this.2]

lemma filter_singleton (a : Text) : [a].filter (fun t => decide (t ≠ [])) = piece a := by
  unfold piece
  by_cases h : a = [] <;> simp [h]

lemma cmdTokens_noAngle {a : Text} (h : NoAngle a) : cmdTokens a = piece a := by
  rw [cmdTokens, List.splitOnP_eq_singleton (not_delim h), filter_singleton]

lemma cmdTokens_append {a : Text} (h : NoAngle a) {c : Char} (hc : c = '>' ∨ c = '<')
    (rest : Text) :
    cmdTokens (a ++ c :: rest) = piece a ++ cmdTokens rest := by
  rw [cmdTokens, List.splitOnP_append_cons_of_forall_mem (not_delim h) c (decide_eq_true hc),
    ← List.singleton_append, List.filter_append, filter_singleton, cmdTokens]

lemma cmdTokens_marker {a tag : Text} (ha : NoAngle a) (ht : NoAngle tag) (rest : Text) :
    cmdTokens (a ++ marker tag ++ rest) = piece a ++ (piece tag ++ cmdTokens rest) := by
  have hm : a ++ marker tag ++ rest = a ++ '<' :: (tag ++ '>' :: rest) := by simp [marker]
  rw [hm, cmdTokens_append ha (Or.inr rfl), cmdTokens_append ht (Or.inl rfl)]

lemma isXmlName_ne_nil {tag : Text} (h : isXmlName tag = true) : tag ≠ [] := by
  rintro rfl
  cases h

lemma newline_notMem_append {s t : Text} (hs : '\n' ∉ s) (ht : '\n' ∉ t) : '\n' ∉ s ++ t := by
  rw [List.mem_append, not_or]
  exact ⟨hs, ht⟩

lemma newline_notMem_name {tag : Text} (ht : isXmlName tag = true) : '\n' ∉ tag :=
  fun h => isNameChar_ne (nameChar_of_mem ht h) (by decide) rfl

lemma newline_notMem_marker {tag : Text} (ht : isXmlName tag = true) : '\n' ∉ marker tag := by
  simp [marker, newline_notMem_name ht]

lemma newline_notMem_endMarker {tag : Text} (ht : isXmlName tag = true) :
    '\n' ∉ marker ('/' :: tag) := by
  simp [marker, newline_notMem_name ht]

end Tokens

section Lines

lemma line_append (line rest : Text) : line ++ ['\n'] ++ rest = line ++ '\n' :: rest := by
  rw [List.append_assoc, List.singleton_append]

lemma leaf_append (s t u v rest : Text) :
    s ++ t ++ u ++ v ++ ['\n'] ++ rest = s ++ t ++ (u ++ v) ++ '\n' :: rest := by
  simp only [List.append_assoc, List.singleton_append]

lemma append_line (s u v t : Text) : s ++ (u ++ '\n' :: v ++ t) = s ++ u ++ '\n' :: (v ++ t) := by
  simp only [List.append_assoc, List.cons_append]

lemma loadText_append (s t : Text) (p : Panel) :
    loadText (s ++ '\n' :: t) p = loadText t (loadText s p) := by
  rw [loadText, List.splitOn_append_cons_self, List.foldl_append]
  rfl

lemma loadText_line {line : Text} (h : '\n' ∉ line) (p : Panel) :
    loadText line p = loadLine p line := by
  rw [loadText, List.splitOn_eq_singleton h]
  rfl

lemma loadLine_noAngle {line : Text} (h : NoAngle line) (p : Panel) : loadLine p line = p := by
  rw [loadLine, cmdTokens_noAngle h, piece]
  split_ifs <;> rfl

def blockNames : List Text :=
  ["SmartHealthStatus".toList, "FileIntegrityScan".toList, "SurfaceScanInfo".toList,
    "DriveBabySitter".toList]

def blockFields : Option Block → List Text
  | some .smart => ["SmartStatus".toList]
  | some .file => ["IntegrityGrade".toList, "LastScanDate".toList]
  | some .surf =>
    ["SurfaceGrade".toList, "SurfaceScanDate".toList, "StabilityScore".toList,
      "AvgReadSpeed".toList, "ScanCoverage".toList]
  | none => []

lemma enterBlock_of_notMem {a : Text} (h : a ∉ blockNames) (inBlock : Option Block) :
    enterBlock a inBlock = inBlock := by
  simp only [blockNames, List.mem_cons, not_or] at h
  unfold enterBlock
  simp only [if_neg h.1, if_neg h.2.1, if_neg h.2.2.1, if_neg h.2.2.2.1]

lemma assign_inBlock (a b : Text) (p : Panel) : (assign a b p).inBlock = p.inBlock := by
  unfold assign setSmart
  split
  · split_ifs <;> rfl
  · rfl
  · rfl
  · rfl

lemma assign_of_notMem {a : Text} {p : Panel} (h : a ∉ blockFields p.inBlock) (b : Text) :
    assign a b p = p := by
  obtain ⟨inBlock, smart, file, surface⟩ := p
  cases inBlock with
  | none => rfl
  | some block =>
    cases block with
    | smart =>
      simp only [blockFields, List.mem_singleton] at h
      simp only [assign, setSmart, if_neg h]
    | file =>
      simp only [blockFields, List.mem_cons, not_or] at h
      simp only [assign, setFile, if_neg h.1, if_neg h.2.1]
    | surf =>
      simp only [blockFields, List.mem_cons, not_or] at h
      simp only [assign, setSurface, if_neg h.1, if_neg h.2.1, if_neg h.2.2.1, if_neg h.2.2.2.1,
        if_neg h.2.2.2.2.1]

lemma slash_notMem_blockNames (tag : Text) : '/' :: tag ∉ blockNames := by
  intro h
  have hb : ∀ t ∈ blockNames, t.head? ≠ some '/' := by decide
  exact hb _ h rfl

lemma slash_notMem_blockFields (tag : Text) (inBlock : Option Block) :
    '/' :: tag ∉ blockFields inBlock := by
  intro h
  have hb : ∀ block ∈ [none, some Block.smart, some .file, some .surf], ∀ t ∈ blockFields block,
      t.head? ≠ some '/' := by decide
  refine hb inBlock ?_ _ h rfl
  rcases inBlock with _ | _ | _ | _ <;> decide

lemma loadLine_inert {line first a : Text} {rest : List Text}
    (ht : cmdTokens line = first :: a :: rest) {p : Panel}
    (hb : a ∉ blockNames) (hf : a ∉ blockFields p.inBlock) : loadLine p line = p := by
  rw [loadLine, ht]
  simp only [enterBlock_of_notMem hb, assign_of_notMem hf, ite_self]

lemma loadLine_end {w tag : Text} (hw : NoAngle w) (ht : NoAngle tag) (p : Panel) :
    loadLine p (w ++ marker ('/' :: tag)) = p := by
  have htokens : cmdTokens (w ++ marker ('/' :: tag)) = piece w ++ ['/' :: tag] := by
    have h := cmdTokens_marker hw (noAngle_slash ht) []
    rw [List.append_nil] at h
    exact h
  by_cases h : w = []
  · rw [loadLine, htokens, h]
    rfl
  · rw [piece, if_neg h] at htokens
    exact loadLine_inert htokens (slash_notMem_blockNames tag) (slash_notMem_blockFields tag _)

lemma loadText_tail {w tag : Text} (hw : NoAngle w) (ht : isXmlName tag = true) (p : Panel) :
    loadText (w ++ marker ('/' :: tag)) p = p := by
  induction hl : w.length using Nat.strong_induction_on generalizing w with
  | _ n ih =>
    by_cases h : '\n' ∈ w
    · obtain ⟨u, v, rfl, hu⟩ := List.eq_append_cons_of_mem h
      have hu' : NoAngle u := (noAngle_append.mp hw).1
      have hv : NoAngle v := fun c hc => (noAngle_append.mp hw).2 c (List.mem_cons_of_mem _ hc)
      rw [List.append_assoc, List.cons_append, loadText_append, loadText_line hu,
        loadLine_noAngle hu']
      refine ih v.length ?_ hv rfl
      rw [← hl, List.length_append, List.length_cons]
      omega
    · rw [loadText_line (newline_notMem_append h (newline_notMem_endMarker ht))]
      exact loadLine_end hw (noAngle_of_isXmlName ht) p

end Lines

section Leaves

def IsIndent (indent : Text) : Prop := NoAngle indent ∧ '\n' ∉ indent ∧ indent.head? = some ' '

instance (indent : Text) : Decidable (IsIndent indent) := inferInstanceAs (Decidable (_ ∧ _))

variable {indent : Text}

lemma IsIndent.piece_eq (h : IsIndent indent) : piece indent = [indent] := by
  rw [piece, if_neg]
  rintro rfl
  cases h.2.2

lemma loadLine_second {line a : Text} {rest : List Text} (h : IsIndent indent)
    (ht : cmdTokens line = indent :: a :: rest) (p : Panel) :
    loadLine p line = assign a (rest.headD []) { p with inBlock := enterBlock a p.inBlock } := by
  rw [loadLine, ht]
  simp only [h.2.2]
  rfl

lemma cmdTokens_indent {tag : Text} (h : IsIndent indent) (ht : isXmlName tag = true) (v : Text) :
    cmdTokens (indent ++ marker tag ++ v) = indent :: tag :: cmdTokens v := by
  rw [cmdTokens_marker h.1 (noAngle_of_isXmlName ht), h.piece_eq, piece,
    if_neg (isXmlName_ne_nil ht)]
  rfl

lemma loadLine_leaf {tag v : Text} (h : IsIndent indent) (ht : isXmlName tag = true)
    (hv : NoAngle v) (hne : v ≠ []) (rest : Text) (p : Panel) :
    loadLine p (indent ++ marker tag ++ (v ++ '<' :: rest)) =
      assign tag v { p with inBlock := enterBlock tag p.inBlock } := by
  have htokens := cmdTokens_indent h ht (v ++ '<' :: rest)
  rw [cmdTokens_append hv (Or.inr rfl), piece, if_neg hne] at htokens
  exact loadLine_second h htokens p

/-- A leaf that the block does not read may hold any text; the others hold one line. -/
def Leaf.Loads (l : Leaf) (block : Option Block) : Prop :=
  l.tag ∉ blockNames ∧ (l.tag ∉ blockFields block ∨ l.raw ≠ [] ∧ '\n' ∉ l.raw)

lemma loadText_leafText (l : Leaf) {p : Panel} (h : l.Loads p.inBlock) (hi : IsIndent indent) :
    loadText (indent ++ marker l.tag ++ (l.raw ++ marker ('/' :: l.tag))) p =
      assign l.tag l.raw p := by
  have hstart : '\n' ∉ indent ++ marker l.tag :=
    newline_notMem_append hi.2.1 (newline_notMem_marker l.name)
  have hfull : '\n' ∉ l.raw → '\n' ∉ indent ++ marker l.tag ++ (l.raw ++ marker ('/' :: l.tag)) :=
    fun hn =>
      newline_notMem_append hstart (newline_notMem_append hn (newline_notMem_endMarker l.name))
  rcases h.2 with hf | ⟨hne, hn⟩
  · rw [assign_of_notMem hf]
    by_cases hn : '\n' ∈ l.raw
    · obtain ⟨u, v, hraw, hu⟩ := List.eq_append_cons_of_mem hn
      have hv : NoAngle v := by
        have hc := l.clean
        rw [hraw, noAngle_append] at hc
        exact fun c hm => hc.2 c (List.mem_cons_of_mem _ hm)
      rw [hraw, append_line, loadText_append, loadText_line (newline_notMem_append hstart hu),
        loadLine_inert (cmdTokens_indent hi l.name u) h.1 hf, loadText_tail hv l.name]
    · rw [loadText_line (hfull hn), loadLine_inert (cmdTokens_indent hi l.name _) h.1 hf]
  · rw [loadText_line (hfull hn)]
    exact (loadLine_leaf hi l.name l.clean hne _ p).trans (by rw [enterBlock_of_notMem h.1])

lemma loadText_leaf (l : Leaf) {p : Panel} (h : l.Loads p.inBlock) (rest : Text) :
    loadText (l.render ++ rest) p = loadText rest (assign l.tag l.raw p) := by
  have hr : l.render ++ rest = "    ".toList ++ marker l.tag ++ (l.raw ++ marker ('/' :: l.tag)) ++
      '\n' :: rest :=
    leaf_append _ _ _ _ rest
  rw [hr, loadText_append, loadText_leafText l h (by decide)]

end Leaves

section Sections

lemma loadText_leaves (leaves : List Leaf) {p : Panel} (h : ∀ l ∈ leaves, l.Loads p.inBlock)
    (rest : Text) :
    loadText (leaves.flatMap Leaf.render ++ rest) p =
      loadText rest (leaves.foldl (fun p l => assign l.tag l.raw p) p) := by
  induction leaves generalizing p with
  | nil => rfl
  | cons l leaves ih =>
    rw [List.flatMap_cons, List.append_assoc, loadText_leaf l (h l List.mem_cons_self),
      List.foldl_cons]
    apply ih
    rw [assign_inBlock]
    exact fun m hm => h m (List.mem_cons_of_mem l hm)

lemma loadText_open {tag : Text} (ht : isXmlName tag = true) {p : Panel}
    (hf : tag ∉ blockFields (enterBlock tag p.inBlock)) (rest : Text) :
    loadText (openLine tag ++ rest) p =
      loadText rest { p with inBlock := enterBlock tag p.inBlock } := by
  have hi : IsIndent "  ".toList := by decide
  have htokens := cmdTokens_indent hi ht []
  rw [List.append_nil] at htokens
  rw [openLine, line_append, loadText_append,
    loadText_line (newline_notMem_append hi.2.1 (newline_notMem_marker ht)),
    loadLine_second hi htokens]
  congr 1
  exact assign_of_notMem hf _

lemma loadText_close {tag : Text} (ht : isXmlName tag = true) (p : Panel) (rest : Text) :
    loadText (closeLine tag ++ rest) p = loadText rest p := by
  rw [closeLine, line_append, loadText_append, loadText_tail (by decide) ht]

def Section.load (s : Section) (p : Panel) : Panel :=
  s.leaves.foldl (fun p l => assign l.tag l.raw p) { p with inBlock := enterBlock s.tag p.inBlock }

def Section.Loads (s : Section) (block : Option Block) : Prop :=
  s.tag ∉ blockFields (enterBlock s.tag block) ∧ ∀ l ∈ s.leaves, l.Loads (enterBlock s.tag block)

lemma loadText_section (s : Section) {p : Panel} (h : s.Loads p.inBlock) (rest : Text) :
    loadText (s.render ++ rest) p = loadText rest (s.load p) := by
  rw [Section.render_lines, List.append_assoc, List.append_assoc, loadText_open s.name h.1,
    loadText_leaves s.leaves h.2, loadText_close s.name, Section.load]

end Sections

section Records

lemma valueLeaf_loads {tag : Text} (name : isXmlName tag = true) (h : tag ∉ blockNames) (v : Value)
    (block : Option Block) : (valueLeaf tag name v).Loads block :=
  ⟨h, Or.inr ⟨v.2.ne_nil, v.2.newline_notMem⟩⟩

lemma blockNames_opens (block : Option Block) :
    ∀ tag ∈ blockNames, tag ∉ blockFields (enterBlock tag block) := by
  rcases block with _ | _ | _ | _ <;> decide +kernel

lemma healthStatus_notMem (block : Option Block) : "HealthStatus".toList ∉ blockFields block := by
  rcases block with _ | _ | _ | _ <;> decide

lemma smartSection_loads (mark : Option CheckMark) (block : Option Block) :
    (smartSection mark).Loads block := by
  refine ⟨blockNames_opens block "SmartHealthStatus".toList (by decide), ?_⟩
  refine List.forall_mem_cons.mpr ⟨valueLeaf_loads _ (by decide) _ _, ?_⟩
  cases mark with
  | none => exact fun _ hl => absurd hl List.not_mem_nil
  | some m =>
    refine List.forall_mem_cons.mpr ⟨valueLeaf_loads _ (by decide) _ _, ?_⟩
    have hb : "HealthStatus".toList ∉ blockNames := by decide
    exact List.forall_mem_singleton.mpr ⟨hb, Or.inl (healthStatus_notMem _)⟩

lemma fileSection_loads (v : FileValues) (block : Option Block) : (fileSection v).Loads block := by
  refine ⟨blockNames_opens block "FileIntegrityScan".toList (by decide), ?_⟩
  unfold fileSection
  simp only [List.forall_mem_cons]
  exact ⟨valueLeaf_loads _ (by decide) _ _, valueLeaf_loads _ (by decide) _ _,
    valueLeaf_loads _ (by decide) _ _,
    valueLeaf_loads _ (by decide) _ _, fun _ hl => absurd hl List.not_mem_nil⟩

lemma surfaceSection_loads (v : SurfaceValues) (block : Option Block) :
    (surfaceSection v).Loads block := by
  refine ⟨blockNames_opens block "SurfaceScanInfo".toList (by decide), ?_⟩
  unfold surfaceSection
  simp only [List.forall_mem_cons]
  exact ⟨valueLeaf_loads _ (by decide) _ _, valueLeaf_loads _ (by decide) _ _,
    valueLeaf_loads _ (by decide) _ _,
    valueLeaf_loads _ (by decide) _ _, valueLeaf_loads _ (by decide) _ _,
    valueLeaf_loads _ (by decide) _ _,
    valueLeaf_loads _ (by decide) _ _, fun _ hl => absurd hl List.not_mem_nil⟩

lemma loadText_outside (ss : List Section) {p : Panel} (hp : p.inBlock = none)
    (h : ∀ s ∈ ss, s.tag ∉ blockNames ∧ ∀ l ∈ s.leaves, l.tag ∉ blockNames) (rest : Text) :
    loadText (ss.flatMap Section.render ++ rest) p = loadText rest p := by
  induction ss with
  | nil => rfl
  | cons s ss ih =>
    have hs := h s List.mem_cons_self
    have henter : enterBlock s.tag p.inBlock = none := by rw [enterBlock_of_notMem hs.1, hp]
    have hloads : s.Loads p.inBlock := by
      rw [Section.Loads, henter]
      exact ⟨List.not_mem_nil, fun l hl => ⟨hs.2 l hl, Or.inl List.not_mem_nil⟩⟩
    have hload : s.load p = p := by
      obtain ⟨inBlock, smart, file, surface⟩ := p
      simp only at hp
      subst hp
      rw [Section.load, henter]
      induction s.leaves with
      | nil => rfl
      | cons l leaves ihl => exact ihl
    rw [List.flatMap_cons, List.append_assoc, loadText_section s hloads, hload]
    exact ih (fun t ht => h t (List.mem_cons_of_mem s ht))

lemma loadText_sections (ss : List Section) (p : Panel) (h : ∀ s ∈ ss, ∀ block, s.Loads block)
    (rest : Text) :
    loadText (ss.flatMap Section.render ++ rest) p =
      loadText rest (ss.foldl (fun p s => s.load p) p) := by
  induction ss generalizing p with
  | nil => rfl
  | cons s ss ih =>
    rw [List.flatMap_cons, List.append_assoc, loadText_section s (h s List.mem_cons_self _),
      List.foldl_cons]
    exact ih _ (fun t ht => h t (List.mem_cons_of_mem s ht))

lemma loadText_document {hardware kept : List Section} {tail : Text}
    (ht : tail = [] ∨ tail = ['\n']) {p : Panel}
    (hp : p.inBlock = none)
    (hout : ∀ s ∈ hardware, s.tag ∉ blockNames ∧ ∀ l ∈ s.leaves, l.tag ∉ blockNames)
    (hkept : ∀ s ∈ kept, ∀ block, s.Loads block) :
    loadText (renderStatus (hardware ++ kept) tail) p = kept.foldl (fun p s => s.load p) p := by
  have hroot : ∀ p, loadText (marker ('/' :: rootName) ++ tail) p = p := by
    intro p
    have hend : loadText ([] ++ marker ('/' :: rootName)) p = p :=
      loadText_tail (by decide) rootName_valid p
    rw [List.nil_append] at hend
    rcases ht with rfl | rfl
    · rw [List.append_nil, hend]
    · rw [loadText_append, hend]
      rfl
  have hopen : loadText (marker rootName) p = p := by
    have htokens :=
      cmdTokens_marker (by decide : NoAngle []) (noAngle_of_isXmlName rootName_valid) []
    rw [List.append_nil, List.nil_append] at htokens
    rw [loadText_line (newline_notMem_marker rootName_valid), loadLine, htokens]
    rfl
  have hr : renderStatus (hardware ++ kept) tail =
      marker rootName ++ '\n' :: (hardware.flatMap Section.render ++
      (kept.flatMap Section.render ++ (marker ('/' :: rootName) ++ tail))) := by
    rw [renderStatus, List.flatMap_append]
    simp only [List.append_assoc, List.cons_append]
  rw [hr, loadText_append, hopen, loadText_outside _ hp hout, loadText_sections kept p hkept, hroot]

def Record.panel (r : Record) : Panel where
  inBlock := some .surf
  smartStatus := "N/A".toList
  file := ⟨r.file.grade.1, r.file.date.1⟩
  surface := ⟨r.surface.grade.1, r.surface.date.1, r.surface.stability.1, r.surface.speed.1,
    r.surface.coverage.1⟩

lemma hardware_outside {hardware : List Section}
    (h : hardware.map Section.schema = hardwareSchema) :
    ∀ s ∈ hardware, s.tag ∉ blockNames ∧ ∀ l ∈ s.leaves, l.tag ∉ blockNames := by
  intro s hs
  have hschema : ∀ e ∈ hardwareSchema, e.1 ∉ blockNames ∧ ∀ t ∈ e.2, t ∉ blockNames := by
    decide +kernel
  have he := hschema s.schema (h ▸ List.mem_map_of_mem hs)
  exact ⟨he.1, fun l hl => he.2 l.tag (List.mem_map_of_mem hl)⟩

lemma load_sections (r : Record) (p : Panel) :
    (surfaceSection r.surface).load ((fileSection r.file).load ((smartSection r.mark).load p)) =
      r.panel := by
  cases h : r.mark with
  | none => rfl
  | some m => rfl

lemma loadText_renderStatus (r : Record) {tail : Text} (h : tail = [] ∨ tail = ['\n']) {p : Panel}
    (hp : p.inBlock = none) : loadText (renderStatus r.sections tail) p = r.panel := by
  have hkept : ∀ s ∈ [smartSection r.mark, fileSection r.file, surfaceSection r.surface], ∀ block,
      s.Loads block :=
    List.forall_mem_cons.mpr
      ⟨smartSection_loads r.mark, List.forall_mem_cons.mpr ⟨fileSection_loads r.file,
      List.forall_mem_singleton.mpr (surfaceSection_loads r.surface)⟩⟩
  rw [Record.sections, loadText_document h hp (hardware_outside r.layout) hkept]
  simp only [List.foldl_cons, List.foldl_nil, load_sections]

end Records

end DriveIntegrity.Status
