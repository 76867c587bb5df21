import DriveIntegrity.Parity.Crc

/-! The window that `FileCheckSummer` slides along a file in search of blocks. -/

namespace DriveIntegrity.Parity

section Model

/-- Pointers into `buffer` are their distances from its start. -/
structure FileCheckSummer where
  currentoffset : ℕ
  buffer : ℕ → BitVec 8
  outpointer : ℕ
  inpointer : ℕ
  tailpointer : ℕ
  readoffset : ℕ
  checksum : BitVec 32
  hasher : Bool

def overwrite (buffer : ℕ → BitVec 8) (first count : ℕ) (bytes : ℕ → BitVec 8) : ℕ → BitVec 8 :=
  fun j => if first ≤ j ∧ j < first + count then bytes (j - first) else buffer j

/-- The file and the block size of a scan, and which reads from the disk succeed -/
structure Scan where
  file : List (BitVec 8)
  blocksize : ℕ
  read : ℕ → ℕ → Bool
  blocksize_pos : 0 < blocksize

namespace Scan

variable (scan : Scan)

def filesize : ℕ :=
  scan.file.length

def byte (offset : ℕ) : BitVec 8 :=
  scan.file.getD offset 0#8

def fillTo (target : ℕ) (s : FileCheckSummer) : Option FileCheckSummer :=
  let want := min (scan.filesize - s.readoffset) (target - s.tailpointer)
  if 0 < want ∧ scan.read s.readoffset want = false then none
  else
    let tailpointer := s.tailpointer + want
    let buffer := overwrite s.buffer s.tailpointer want fun j => scan.byte (s.readoffset + j)
    some { s with
      buffer := overwrite buffer tailpointer (target - tailpointer) fun _ => 0#8
      readoffset := s.readoffset + want
      tailpointer := tailpointer }

def fill (longfill : Bool) (s : FileCheckSummer) : Option FileCheckSummer :=
  if scan.filesize ≤ s.readoffset then some s
  else if scan.blocksize ≤ s.tailpointer ∧ longfill = false then some s
  else scan.fillTo (if s.tailpointer = 0 then scan.blocksize else 2 * scan.blocksize) s

def blockLength (s : FileCheckSummer) : ℕ :=
  min scan.blocksize (scan.filesize - s.currentoffset)

def shortBlock (s : FileCheckSummer) : Bool :=
  scan.blockLength s < scan.blocksize

def bytes (buffer : ℕ → BitVec 8) (first count : ℕ) : List (BitVec 8) :=
  (List.range count).map fun j => buffer (first + j)

/-- `ComputeCurrentChecksum`; what the hasher gives while the file is read in order is taken to be
the checksum of the block, with zeros after the end of the file. -/
def computeCurrentChecksum (s : FileCheckSummer) : FileCheckSummer :=
  if s.hasher then
    let blocklen := min scan.blocksize (scan.filesize - s.currentoffset)
    { s with checksum :=
      crcCompute (bytes s.buffer 0 blocklen ++ .replicate (scan.blocksize - blocklen) 0#8) }
  else
    { s with checksum := crcCompute (bytes s.buffer 0 scan.blocksize) }

def opened (memory : ℕ → BitVec 8) : FileCheckSummer where
  currentoffset := 0
  buffer := memory
  outpointer := 0
  inpointer := scan.blocksize
  tailpointer := 0
  readoffset := 0
  checksum := 0#32
  hasher := true

def start (memory : ℕ → BitVec 8) : Option FileCheckSummer :=
  (scan.fill false (scan.opened memory)).map scan.computeCurrentChecksum

/-- What `Step` and `Jump` leave at the end of the file -/
def atEnd (s : FileCheckSummer) : FileCheckSummer :=
  { s with
    currentoffset := scan.filesize
    tailpointer := 0
    outpointer := 0
    buffer := overwrite s.buffer 0 scan.blocksize fun _ => 0#8
    checksum := 0#32 }

/-- `Step` from where there is data in the buffer -/
def slide (s : FileCheckSummer) : FileCheckSummer :=
  let inch := s.buffer s.inpointer
  let outch := s.buffer s.outpointer
  let s := { s with
    inpointer := s.inpointer + 1
    outpointer := s.outpointer + 1
    checksum := crcSlideChar s.checksum inch outch (generateWindowTable scan.blocksize) }
  if s.outpointer < scan.blocksize then s
  else
    { s with
      buffer := overwrite s.buffer 0 scan.blocksize fun j => s.buffer (s.outpointer + j)
      inpointer := s.outpointer
      outpointer := 0
      tailpointer := s.tailpointer - scan.blocksize }

def step (s : FileCheckSummer) : Option FileCheckSummer :=
  if scan.filesize ≤ s.currentoffset then none
  else
    let s := { s with hasher := false, currentoffset := s.currentoffset + 1 }
    if scan.filesize ≤ s.currentoffset then some (scan.atEnd s)
    else (if s.tailpointer ≤ s.inpointer then scan.fill true s else some s).map scan.slide

/-- `Jump` past data in the buffer: what is kept moves to its start. -/
def discard (distance : ℕ) (s : FileCheckSummer) : FileCheckSummer :=
  let outpointer := s.outpointer + distance
  let keep := s.tailpointer - outpointer
  { s with
    buffer := overwrite s.buffer 0 keep fun j => s.buffer (outpointer + j)
    tailpointer := keep
    outpointer := 0
    inpointer := scan.blocksize }

def jump (s : FileCheckSummer) (distance : ℕ) : Option FileCheckSummer :=
  if scan.filesize ≤ s.currentoffset then none
  else if distance = 0 then none
  else if distance = 1 then scan.step s
  else
    let distance := min distance scan.blocksize
    let s := { s with
      hasher := if distance ≠ scan.blocksize ∧ s.currentoffset + distance < scan.filesize
        then false else s.hasher
      currentoffset := s.currentoffset + distance }
    if scan.filesize ≤ s.currentoffset then some (scan.atEnd s)
    else
      let s := scan.discard distance s
      -- With a whole block in the buffer its checksum is computed while `Fill` runs.
      if scan.blocksize ≤ s.tailpointer ∧ distance = scan.blocksize then
        scan.fill false (scan.computeCurrentChecksum s)
      else (scan.fill false s).map scan.computeCurrentChecksum

/-- `Start`, then `Jump` over one distance after the other; a `Step` is a `Jump` by one. -/
def run (memory : ℕ → BitVec 8) (distances : List ℕ) : Option FileCheckSummer :=
  (scan.start memory).bind fun s => distances.foldlM scan.jump s

def shortChecksum (s : FileCheckSummer) (blocklength : ℕ) : BitVec 32 :=
  let crc := crcCompute (bytes s.buffer s.outpointer blocklength)
  if blocklength < scan.blocksize then
    ~~~(crcUpdateZeros (~~~crc) (scan.blocksize - blocklength)) else crc

end Scan

end Model

section Invariant

variable {scan : Scan} {s s' : FileCheckSummer}

/-- The bytes between the pointers are those of the file. -/
structure Buffered (scan : Scan) (s : FileCheckSummer) : Prop where
  offset_lt : s.currentoffset < scan.filesize
  outpointer_lt : s.outpointer < scan.blocksize
  inpointer : s.inpointer = s.outpointer + scan.blocksize
  outpointer_le : s.outpointer ≤ s.tailpointer
  tailpointer_le : s.tailpointer ≤ 2 * scan.blocksize
  readoffset : s.readoffset + s.outpointer = s.currentoffset + s.tailpointer
  readoffset_le : s.readoffset ≤ scan.filesize
  buffer : ∀ j, s.outpointer ≤ j → j < s.tailpointer →
    s.buffer j = scan.byte (s.currentoffset + (j - s.outpointer))

/-- What the window shows, with zeros after the end of the file -/
def Scan.window (scan : Scan) (offset : ℕ) : List (BitVec 8) :=
  (List.range scan.blocksize).map fun j => scan.byte (offset + j)

/-- The window is in the buffer, as far as there is a file; and the checksum is that of a whole
window. -/
structure Windowed (scan : Scan) (s : FileCheckSummer) : Prop where
  buffered : Buffered scan s
  full : s.outpointer + scan.blocksize ≤ s.tailpointer ∨ s.readoffset = scan.filesize
  checksum : s.currentoffset + scan.blocksize ≤ scan.filesize →
    s.checksum = crcCompute (scan.window s.currentoffset)

lemma overwrite_of_lt {buffer bytes : ℕ → BitVec 8} {first count j : ℕ} (h : j < first) :
    overwrite buffer first count bytes j = buffer j :=
  if_neg (by omega)

lemma overwrite_of_mem {buffer bytes : ℕ → BitVec 8} {first count j : ℕ} (h : first ≤ j)
    (h' : j < first + count) :
    overwrite buffer first count bytes j = bytes (j - first) :=
  if_pos ⟨h, h'⟩

lemma overwrite_of_ge {buffer bytes : ℕ → BitVec 8} {first count j : ℕ} (h : first + count ≤ j) :
    overwrite buffer first count bytes j = buffer j :=
  if_neg (by omega)

lemma Buffered.fillTo {target : ℕ} (h : Buffered scan s) (hlow : s.tailpointer ≤ target)
    (hhigh : target ≤ 2 * scan.blocksize) (hfill : scan.fillTo target s = some s') :
    Buffered scan s' ∧ s'.currentoffset = s.currentoffset ∧ s'.outpointer = s.outpointer ∧
    s'.checksum = s.checksum ∧
      (s'.readoffset = scan.filesize ∨ s'.tailpointer = target) := by
  have hout := h.outpointer_le
  have hread := h.readoffset
  have hle := h.readoffset_le
  rw [Scan.fillTo] at hfill
  split_ifs at hfill with hfails
  obtain rfl := Option.some.inj hfill
  refine ⟨⟨h.offset_lt, h.outpointer_lt, h.inpointer, ?_, ?_, ?_, ?_, fun j hj hj' => ?_⟩,
    rfl, rfl, rfl, ?_⟩
  all_goals dsimp only at *
  · omega
  · omega
  · omega
  · omega
  · rw [overwrite_of_lt hj']
    rcases lt_or_ge j s.tailpointer with hlt | hge
    · rw [overwrite_of_lt hlt]
      exact h.buffer j hj hlt
    · rw [overwrite_of_mem hge hj']
      congr 1
      omega
  · omega

lemma Buffered.fill {longfill : Bool} (h : Buffered scan s)
    (hfill : scan.fill longfill s = some s') :
    Buffered scan s' ∧ s'.currentoffset = s.currentoffset ∧ s'.outpointer = s.outpointer ∧
    s'.checksum = s.checksum ∧
      (s'.readoffset = scan.filesize ∨
        scan.blocksize ≤ s'.tailpointer ∧
        (longfill = true → s.tailpointer ≠ 0 → s'.tailpointer = 2 * scan.blocksize)) := by
  have hle := h.readoffset_le
  have htail := h.tailpointer_le
  rw [Scan.fill] at hfill
  split_ifs at hfill with hend henough hzero
  · obtain rfl := Option.some.inj hfill
    exact ⟨h, rfl, rfl, rfl, .inl (by omega)⟩
  · obtain rfl := Option.some.inj hfill
    exact ⟨h, rfl, rfl, rfl,
      .inr ⟨henough.1, fun hlong => absurd (henough.2.symm.trans hlong) Bool.false_ne_true⟩⟩
  · obtain ⟨hbuffered, hoffset, hout, hsum, hfilled⟩ := h.fillTo (by omega) (by omega) hfill
    exact ⟨hbuffered, hoffset, hout, hsum, hfilled.imp id fun htarget =>
      ⟨htarget.ge, fun _ hne => absurd hzero hne⟩⟩
  · obtain ⟨hbuffered, hoffset, hout, hsum, hfilled⟩ := h.fillTo htail le_rfl hfill
    exact ⟨hbuffered, hoffset, hout, hsum, hfilled.imp id fun htarget =>
      ⟨by omega, fun _ _ => htarget⟩⟩

lemma Buffered.bytes_eq (h : Buffered scan s) {count : ℕ}
    (hcount : s.outpointer + count ≤ s.tailpointer) :
    Scan.bytes s.buffer s.outpointer count = (List.range count).map fun j =>
      scan.byte (s.currentoffset + j) := by
  refine List.map_congr_left fun j hj => ?_
  have hlt := List.mem_range.mp hj
  rw [h.buffer _ (Nat.le_add_right _ _) (by omega), Nat.add_sub_cancel_left]

lemma computeCurrentChecksum_eq (s : FileCheckSummer) :
    scan.computeCurrentChecksum s =
      { s with checksum := (scan.computeCurrentChecksum s).checksum } := by
  rw [Scan.computeCurrentChecksum]
  split_ifs <;> rfl

lemma Buffered.computed (h : Buffered scan s) (hout : s.outpointer = 0)
    (hfull : scan.blocksize ≤ s.tailpointer ∨ s.readoffset = scan.filesize) :
    Windowed scan (scan.computeCurrentChecksum s) := by
  have hkeep : Buffered scan (scan.computeCurrentChecksum s) := by
    rw [computeCurrentChecksum_eq]
    exact ⟨h.offset_lt, h.outpointer_lt, h.inpointer, h.outpointer_le, h.tailpointer_le,
      h.readoffset, h.readoffset_le,
      h.buffer⟩
  have hsame : (scan.computeCurrentChecksum s).currentoffset = s.currentoffset ∧
      (scan.computeCurrentChecksum s).outpointer = s.outpointer ∧
      (scan.computeCurrentChecksum s).tailpointer = s.tailpointer ∧
      (scan.computeCurrentChecksum s).readoffset = s.readoffset := by
    rw [computeCurrentChecksum_eq]
    exact ⟨rfl, rfl, rfl, rfl⟩
  obtain ⟨hoffset, houtpointer, htail, hread⟩ := hsame
  refine ⟨hkeep, by rw [houtpointer, htail, hread, hout]; omega, fun hwhole => ?_⟩
  rw [hoffset] at hwhole ⊢
  have hreadoffset := h.readoffset
  have hbytes : Scan.bytes s.buffer 0 scan.blocksize = scan.window s.currentoffset :=
    hout ▸ h.bytes_eq (by omega)
  rw [Scan.computeCurrentChecksum]
  split_ifs
  · dsimp only
    rw [Nat.min_eq_left (by omega), Nat.sub_self, List.replicate_zero, List.append_nil, hbytes]
  · dsimp only
    rw [hbytes]

lemma buffered_opened (memory : ℕ → BitVec 8) (hsize : 0 < scan.filesize) :
    Buffered scan (scan.opened memory) :=
  ⟨hsize, scan.blocksize_pos, (Nat.zero_add _).symm, le_rfl, Nat.zero_le _, rfl, Nat.zero_le _,
    fun j _ hj => absurd hj (Nat.not_lt_zero j)⟩

lemma windowed_start {memory : ℕ → BitVec 8} (hsize : 0 < scan.filesize)
    (hstart : scan.start memory = some s) :
    Windowed scan s := by
  obtain ⟨s', hfill, rfl⟩ := Option.map_eq_some_iff.mp hstart
  obtain ⟨hbuffered, -, hout, -, hfilled⟩ := (buffered_opened memory hsize).fill hfill
  exact hbuffered.computed hout (hfilled.elim .inr fun h => .inl h.1)

lemma window_succ (offset : ℕ) {m : ℕ} (hm : scan.blocksize = m + 1) :
    scan.window offset =
      scan.byte offset :: (List.range m).map (fun j => scan.byte (offset + 1 + j)) ∧
      scan.window (offset + 1) =
        (List.range m).map (fun j => scan.byte (offset + 1 + j)) ++
          [scan.byte (offset + scan.blocksize)] := by
  refine ⟨?_, ?_⟩
  · rw [Scan.window, hm, List.range_succ_eq_map, List.map_cons, List.map_map, Nat.add_zero]
    refine congrArg _ (List.map_congr_left fun j _ => ?_)
    exact congrArg scan.byte (by rw [Nat.succ_eq_add_one]; omega)
  · rw [Scan.window, hm, List.range_succ, List.map_append, List.map_singleton, Nat.add_assoc,
      Nat.add_comm 1 m]

lemma Buffered.slide (h : Buffered scan s) (hmore : s.currentoffset + 1 < scan.filesize)
    (hroom : s.readoffset = scan.filesize ∨ s.outpointer + scan.blocksize < s.tailpointer)
    (hsum : s.currentoffset + scan.blocksize ≤ scan.filesize →
      s.checksum = crcCompute (scan.window s.currentoffset)) :
    Windowed scan
      (scan.slide { s with hasher := false, currentoffset := s.currentoffset + 1 }) := by
  have hread := h.readoffset
  have hpointer := h.outpointer_lt
  have htail : s.outpointer + 1 ≤ s.tailpointer := by omega
  have hlow := h.tailpointer_le
  have hle := h.readoffset_le
  have hcrc : s.currentoffset + 1 + scan.blocksize ≤ scan.filesize →
      crcSlideChar s.checksum (s.buffer s.inpointer) (s.buffer s.outpointer)
        (generateWindowTable scan.blocksize) =
        crcCompute (scan.window (s.currentoffset + 1)) := by
    intro hwhole
    obtain ⟨m, hm⟩ : ∃ m, scan.blocksize = m + 1 := ⟨scan.blocksize - 1, by omega⟩
    obtain ⟨hold, hnew⟩ := window_succ s.currentoffset hm
    have hfirst : s.buffer s.outpointer = scan.byte s.currentoffset := by
      rw [h.buffer _ le_rfl (by omega), Nat.sub_self, Nat.add_zero]
    have hlast : s.buffer s.inpointer = scan.byte (s.currentoffset + scan.blocksize) := by
      rw [h.inpointer, h.buffer _ (Nat.le_add_right _ _) (by omega), Nat.add_sub_cancel_left]
    have hslide :=
      crcSlideChar_eq (scan.byte s.currentoffset) (scan.byte (s.currentoffset + scan.blocksize))
      ((List.range m).map fun j => scan.byte (s.currentoffset + 1 + j))
    rw [List.length_map, List.length_range, ← hm] at hslide
    rw [hsum (by omega), hold, hfirst, hlast, hnew, hslide]
  have hbuffer : ∀ j, s.outpointer + 1 ≤ j → j < s.tailpointer →
      s.buffer j = scan.byte (s.currentoffset + 1 + (j - (s.outpointer + 1))) := fun j hj hj' => by
    rw [h.buffer j (by omega) hj']
    exact congrArg scan.byte (by omega)
  have hin := h.inpointer
  rw [Scan.slide]
  dsimp only
  split_ifs with hwrap
  · refine ⟨⟨hmore, hwrap, ?_, htail, hlow, ?_, hle, hbuffer⟩, ?_, hcrc⟩
    all_goals dsimp only; omega
  · have hend : s.outpointer + 1 = scan.blocksize := by omega
    refine ⟨⟨hmore, scan.blocksize_pos, ?_, Nat.zero_le _, ?_, ?_, hle, fun j _ hj => ?_⟩, ?_, hcrc⟩
    all_goals dsimp only at *
    · omega
    · omega
    · omega
    · rw [overwrite_of_mem (Nat.zero_le j) (by omega), Nat.sub_zero,
        hbuffer _ (by omega) (by omega)]
      exact congrArg scan.byte (by omega)
    · omega

lemma fill_with (longfill : Bool) (s : FileCheckSummer) (offset : ℕ) :
    scan.fill longfill { s with hasher := false, currentoffset := offset } =
      (scan.fill longfill s).map fun s => { s with hasher := false, currentoffset := offset } := by
  simp only [Scan.fill, Scan.fillTo]
  split_ifs <;> rfl

def Scanned (scan : Scan) (s : FileCheckSummer) : Prop :=
  s.currentoffset = scan.filesize ∨ Windowed scan s

lemma Windowed.step (h : Windowed scan s) (hstep : scan.step s = some s') : Scanned scan s' := by
  have hbuffered := h.buffered
  have hread := hbuffered.readoffset
  rw [Scan.step, if_neg (by have := hbuffered.offset_lt; omega)] at hstep
  dsimp only at hstep
  split_ifs at hstep with hend hneed
  · obtain rfl := Option.some.inj hstep
    exact .inl rfl
  · rw [fill_with, Option.map_map] at hstep
    obtain ⟨filled, hfill, rfl⟩ := Option.map_eq_some_iff.mp hstep
    obtain ⟨hfilled, hoffset, hout, hsum, hroom⟩ := hbuffered.fill hfill
    have hpointer := hbuffered.outpointer_lt
    have hfull := h.full
    have hlt := hbuffered.offset_lt
    refine .inr ?_
    have hslide := hfilled.slide (by omega) (hroom.imp id fun hlong => ?_)
      (by rw [hoffset, hsum]; exact h.checksum)
    · rw [hoffset] at hslide
      exact hslide
    · rw [hlong.2 rfl (by omega), hout]
      omega
  · obtain rfl := Option.some.inj hstep
    have hin := hbuffered.inpointer
    exact .inr (hbuffered.slide (by omega) (.inr (by omega)) h.checksum)

lemma Windowed.discard (h : Windowed scan s) {distance : ℕ} (hdistance : distance ≤ scan.blocksize)
    (hmore : s.currentoffset + distance < scan.filesize) (hasher : Bool) :
    Buffered scan
      (scan.discard distance
        { s with hasher := hasher, currentoffset := s.currentoffset + distance }) := by
  have hbuffered := h.buffered
  have hread := hbuffered.readoffset
  have hfull := h.full
  have hlow := hbuffered.tailpointer_le
  rw [Scan.discard]
  refine ⟨hmore, scan.blocksize_pos, ?_, Nat.zero_le _, ?_, ?_, hbuffered.readoffset_le,
    fun j _ hj => ?_⟩
  all_goals dsimp only at *
  · omega
  · omega
  · omega
  · rw [overwrite_of_mem (Nat.zero_le j) (by omega), Nat.sub_zero,
      hbuffered.buffer _ (by omega) (by omega)]
    exact congrArg scan.byte (by omega)

lemma Windowed.fill (h : Windowed scan s) (hout : s.outpointer = 0)
    (hfill : scan.fill false s = some s') :
    Windowed scan s' := by
  obtain ⟨hbuffered, hoffset, hout', hsum, hfilled⟩ := h.buffered.fill hfill
  refine ⟨hbuffered, ?_, by rw [hoffset, hsum]; exact h.checksum⟩
  rw [hout', hout, Nat.zero_add]
  exact hfilled.elim .inr fun hblock => .inl hblock.1

lemma outpointer_computed (s : FileCheckSummer) :
    (scan.computeCurrentChecksum s).outpointer = s.outpointer := by
  rw [computeCurrentChecksum_eq]

lemma Windowed.jump (h : Windowed scan s) {distance : ℕ} (hjump : scan.jump s distance = some s') :
    Scanned scan s' := by
  rw [Scan.jump, if_neg (by have := h.buffered.offset_lt; omega)] at hjump
  rcases eq_or_ne distance 0 with rfl | hzero
  · rw [if_pos rfl] at hjump
    exact absurd hjump.symm (Option.some_ne_none _)
  rw [if_neg hzero] at hjump
  rcases eq_or_ne distance 1 with rfl | hone
  · rw [if_pos rfl] at hjump
    exact h.step hjump
  rw [if_neg hone] at hjump
  dsimp only at hjump
  generalize (if min distance scan.blocksize ≠ scan.blocksize ∧
    s.currentoffset + min distance scan.blocksize < scan.filesize then false else s.hasher) =
      hasher at hjump
  rcases le_or_gt scan.filesize (s.currentoffset + min distance scan.blocksize) with hend | hmore
  · rw [if_pos hend] at hjump
    obtain rfl := Option.some.inj hjump
    exact .inl rfl
  rw [if_neg hmore.not_ge] at hjump
  have hmoved := h.discard (Nat.min_le_right distance scan.blocksize) hmore hasher
  split_ifs at hjump with hblock
  · exact .inr ((hmoved.computed rfl (.inl hblock.1)).fill (outpointer_computed _) hjump)
  · obtain ⟨filled, hfill, rfl⟩ := Option.map_eq_some_iff.mp hjump
    obtain ⟨hfilled, -, hout, -, hroom⟩ := hmoved.fill hfill
    exact .inr (hfilled.computed hout (hroom.elim .inr fun h => .inl h.1))

lemma Scanned.jump (h : Scanned scan s) {distance : ℕ} (hjump : scan.jump s distance = some s') :
    Scanned scan s' := by
  rcases h with hend | h
  · rw [Scan.jump, if_pos hend.ge] at hjump
    exact absurd hjump.symm (Option.some_ne_none _)
  · exact h.jump hjump

lemma scanned_start {memory : ℕ → BitVec 8} (hstart : scan.start memory = some s) :
    Scanned scan s := by
  rcases Nat.eq_zero_or_pos scan.filesize with hzero | hpos
  · obtain ⟨s', hfill, rfl⟩ := Option.map_eq_some_iff.mp hstart
    rw [Scan.fill, if_pos (hzero.trans_le (Nat.zero_le _))] at hfill
    obtain rfl := Option.some.inj hfill
    exact .inl hzero.symm
  · exact .inr (windowed_start hpos hstart)

lemma Scanned.foldlM_jump {distances : List ℕ} (h : Scanned scan s)
    (hrun : distances.foldlM scan.jump s = some s') :
    Scanned scan s' := by
  induction distances generalizing s with
  | nil => exact Option.some.inj hrun ▸ h
  | cons distance distances ih =>
    obtain ⟨next, hjump, hrest⟩ := Option.bind_eq_some_iff.mp hrun
    exact ih (h.jump hjump) hrest

lemma crcCompute_zeros (buffer : List (BitVec 8)) (length : ℕ) :
    ~~~(crcUpdateZeros (~~~(crcCompute buffer)) length) =
      crcCompute (buffer ++ .replicate length 0#8) := by
  rw [crcCompute, crcCompute, BitVec.allOnes_xor, BitVec.not_not, crcUpdateZeros_eq,
    BitVec.allOnes_xor, crcUpdateBlock, crcUpdateBlock, crcUpdateBlock, List.foldl_append]

lemma byte_of_le {offset : ℕ} (h : scan.filesize ≤ offset) : scan.byte offset = 0#8 := by
  have hpast : scan.file.length ≤ offset := h
  rw [Scan.byte, List.getD_eq_getElem?_getD, List.getElem?_eq_none hpast, Option.getD_none]

lemma window_eq {offset : ℕ} (hoffset : offset ≤ scan.filesize)
    (hshort : scan.filesize < offset + scan.blocksize) :
    scan.window offset =
      (List.range (scan.filesize - offset)).map (fun j => scan.byte (offset + j)) ++
      .replicate (scan.blocksize - (scan.filesize - offset)) 0#8 := by
  have hsplit : scan.blocksize =
      (scan.filesize - offset) + (scan.blocksize - (scan.filesize - offset)) := by omega
  rw [Scan.window]
  nth_rewrite 1 [hsplit]
  rw [List.range_add, List.map_append, List.map_map]
  refine congrArg _
    (List.eq_replicate_iff.mpr ⟨by rw [List.length_map, List.length_range], fun b hb => ?_⟩)
  obtain ⟨j, -, rfl⟩ := List.mem_map.mp hb
  exact byte_of_le (show scan.filesize ≤ offset + (scan.filesize - offset + j) by omega)

lemma Windowed.shortChecksum (h : Windowed scan s) :
    scan.shortChecksum s (scan.blockLength s) = crcCompute (scan.window s.currentoffset) := by
  have hlt := h.buffered.offset_lt
  have hread := h.buffered.readoffset
  have hfull := h.full
  have hout := h.buffered.outpointer_le
  rw [Scan.shortChecksum]
  rcases le_or_gt (s.currentoffset + scan.blocksize) scan.filesize with hwhole | hshort
  · have hlength : scan.blockLength s = scan.blocksize := Nat.min_eq_left (by omega)
    rw [hlength, if_neg (Nat.lt_irrefl _), h.buffered.bytes_eq (by omega), Scan.window]
  · have hlength : scan.blockLength s = scan.filesize - s.currentoffset :=
      Nat.min_eq_right (by omega)
    rw [hlength, if_pos (by omega), crcCompute_zeros, h.buffered.bytes_eq (by omega),
      window_eq hlt.le hshort]

lemma offset_fill {longfill : Bool} (hfill : scan.fill longfill s = some s') :
    s'.currentoffset = s.currentoffset := by
  rw [Scan.fill, Scan.fillTo] at hfill
  dsimp only at hfill
  split_ifs at hfill
  all_goals
    obtain rfl := Option.some.inj hfill
    rfl

lemma offset_computed (s : FileCheckSummer) :
    (scan.computeCurrentChecksum s).currentoffset = s.currentoffset := by
  rw [computeCurrentChecksum_eq]

lemma offset_slide (s : FileCheckSummer) : (scan.slide s).currentoffset = s.currentoffset := by
  rw [Scan.slide]
  dsimp only
  split_ifs <;> rfl

lemma offset_step (hstep : scan.step s = some s') :
    s'.currentoffset = min scan.filesize (s.currentoffset + 1) := by
  rw [Scan.step] at hstep
  dsimp only at hstep
  split_ifs at hstep with hstop hend hneed
  · obtain rfl := Option.some.inj hstep
    exact (Nat.min_eq_left hend).symm
  · obtain ⟨filled, hfill, rfl⟩ := Option.map_eq_some_iff.mp hstep
    rw [offset_slide, offset_fill hfill, Nat.min_eq_right (by omega)]
  · obtain rfl := Option.some.inj hstep
    rw [offset_slide, Nat.min_eq_right (by omega)]

lemma offset_jump {distance : ℕ} (hjump : scan.jump s distance = some s') :
    s'.currentoffset = min scan.filesize (s.currentoffset + min distance scan.blocksize) := by
  have hpos := scan.blocksize_pos
  rw [Scan.jump] at hjump
  split_ifs at hjump with hstop hzero hone
  · rw [offset_step hjump, hone, Nat.min_eq_left (show 1 ≤ scan.blocksize from hpos)]
  · dsimp only at hjump
    generalize (if min distance scan.blocksize ≠ scan.blocksize ∧
      s.currentoffset + min distance scan.blocksize < scan.filesize then false else s.hasher) =
        hasher at hjump
    split_ifs at hjump with hend hblock
    · obtain rfl := Option.some.inj hjump
      exact (Nat.min_eq_left hend).symm
    · rw [offset_fill hjump, offset_computed]
      exact (Nat.min_eq_right (Nat.le_of_not_le hend)).symm
    · obtain ⟨filled, hfill, rfl⟩ := Option.map_eq_some_iff.mp hjump
      rw [offset_computed, offset_fill hfill]
      exact (Nat.min_eq_right (Nat.le_of_not_le hend)).symm

lemma offset_run {distances : List ℕ} (hs : s.currentoffset ≤ scan.filesize)
    (hrun : distances.foldlM scan.jump s = some s') :
    s'.currentoffset =
      min scan.filesize (s.currentoffset + (distances.map (min · scan.blocksize)).sum) := by
  induction distances generalizing s with
  | nil =>
    obtain rfl := Option.some.inj hrun
    rw [List.map_nil, List.sum_nil, Nat.add_zero, Nat.min_eq_right hs]
  | cons distance distances ih =>
    obtain ⟨next, hjump, hrest⟩ := Option.bind_eq_some_iff.mp hrun
    have hnext := offset_jump hjump
    rw [ih (by omega) hrest, hnext, List.map_cons, List.sum_cons]
    omega

end Invariant

section Results

variable {scan : Scan} {s : FileCheckSummer}

/-- The window is where the steps and jumps have led. The checksum of a whole block is that of the
window, and the one that is taken of a short block is that of the rest of the file with its
zeros. -/
theorem run_checksums (memory : ℕ → BitVec 8) (distances : List ℕ)
    (hrun : scan.run memory distances = some s) :
    s.currentoffset = min scan.filesize (distances.map (min · scan.blocksize)).sum ∧
      (s.currentoffset < scan.filesize →
        (scan.shortBlock s = false → s.checksum = crcCompute (scan.window s.currentoffset)) ∧
          scan.shortChecksum s (scan.blockLength s) =
            crcCompute (scan.window s.currentoffset)) := by
  obtain ⟨first, hstart, hjumps⟩ := Option.bind_eq_some_iff.mp hrun
  have hfirst : first.currentoffset = 0 := by
    obtain ⟨filled, hfill, rfl⟩ := Option.map_eq_some_iff.mp hstart
    rw [offset_computed, offset_fill hfill, Scan.opened]
  refine ⟨?_, fun hoffset => ?_⟩
  · rw [offset_run (by omega) hjumps, hfirst, Nat.zero_add]
  · obtain hend | h := (scanned_start hstart).foldlM_jump hjumps
    · exact absurd hend hoffset.ne
    · refine ⟨fun hwhole => h.checksum ?_, h.shortChecksum⟩
      have hlength : ¬ scan.blockLength s < scan.blocksize := of_decide_eq_false hwhole
      have hmin : scan.blockLength s = min scan.blocksize (scan.filesize - s.currentoffset) := rfl
      omega

def fiveBytes : Scan where
  file := [1#8, 2#8, 3#8, 4#8, 5#8]
  blocksize := 2
  read := fun _ _ => true
  blocksize_pos := Nat.two_pos

theorem run_checksums_five :
    ∃ s, fiveBytes.run (fun _ => 9#8) [1, 2] = some s ∧ s.currentoffset = 3 ∧
    s.checksum = crcCompute [4#8, 5#8] := by
  refine ⟨_, rfl, rfl, ?_⟩
  exact ((@run_checksums fiveBytes _ (fun _ => 9#8) [1, 2] rfl).2 (by decide)).1 (by decide)

end Results

section Short

variable {scan : Scan} {s s' : FileCheckSummer}

lemma var_mul_cancel {x y : Crc} (h : var ^ 8 * x = var ^ 8 * y) : x = y := by
  have hone : var ^ 4294967287 * var ^ 8 = 1 := (pow_add var 4294967287 8).symm.trans var_order
  calc x = var ^ 4294967287 * (var ^ 8 * x) := by rw [← mul_assoc, hone, one_mul]
    _ = var ^ 4294967287 * (var ^ 8 * y) := by rw [h]
    _ = y := by rw [← mul_assoc, hone, one_mul]

lemma crcCompute_concat_inj {buffer : List (BitVec 8)} {a b : BitVec 8} :
    crcCompute (buffer ++ [a]) = crcCompute (buffer ++ [b]) ↔ a = b := by
  refine ⟨fun h => ?_, fun h => h ▸ rfl⟩
  have hconcat (ch : BitVec 8) : ofCrc (crcCompute (buffer ++ [ch])) = ofCrc (BitVec.allOnes 32) +
      var ^ 8 * (ofCrc (crcUpdateBlock (BitVec.allOnes 32) buffer) + ofCrc (ch.setWidth 32)) := by
    rw [crcCompute, ofCrc_xor, ← ofCrc_crcUpdateChar, crcUpdateBlock, List.foldl_append]
    rfl
  have hbytes := congrArg ofCrc h
  rw [hconcat, hconcat] at hbytes
  have hword := ofCrc_injective (add_left_cancel (var_mul_cancel (add_left_cancel hbytes)))
  have hback := congrArg (BitVec.setWidth 8) hword
  rwa [BitVec.setWidth_setWidth_of_le _ (by norm_num),
    BitVec.setWidth_setWidth_of_le _ (by norm_num), BitVec.setWidth_eq, BitVec.setWidth_eq] at hback

lemma fillTo_rest {target : ℕ} (hlow : s.tailpointer ≤ target)
    (hfill : scan.fillTo target s = some s') :
    s'.hasher = s.hasher ∧ ∀ j, target ≤ j → s'.buffer j = s.buffer j := by
  rw [Scan.fillTo] at hfill
  dsimp only at hfill
  split_ifs at hfill
  obtain rfl := Option.some.inj hfill
  refine ⟨rfl, fun j hj => ?_⟩
  dsimp only
  rw [overwrite_of_ge (by omega), overwrite_of_ge (by omega)]

lemma checksum_slide (s : FileCheckSummer) : (scan.slide s).checksum =
    crcSlideChar s.checksum (s.buffer s.inpointer) (s.buffer s.outpointer)
      (generateWindowTable scan.blocksize) := by
  rw [Scan.slide]
  dsimp only
  split_ifs <;> rfl

lemma step_of_read (hread : s.readoffset = scan.filesize)
    (hmore : s.currentoffset + 1 < scan.filesize) :
    scan.step s =
      some (scan.slide { s with hasher := false, currentoffset := s.currentoffset + 1 }) := by
  rw [Scan.step, if_neg (by omega)]
  dsimp only
  rw [if_neg (by omega), Scan.fill, if_pos hread.ge, ite_self, Option.map_some]

lemma start_short {memory : ℕ → BitVec 8} (hsize : 0 < scan.filesize)
    (hshort : scan.filesize < scan.blocksize) (hstart : scan.start memory = some s) :
    Buffered scan s ∧ s.currentoffset = 0 ∧ s.outpointer = 0 ∧ s.readoffset = scan.filesize ∧
      s.checksum = crcCompute (scan.window 0) ∧
      s.buffer scan.blocksize = memory scan.blocksize := by
  have hbuffered := (windowed_start hsize hstart).buffered
  obtain ⟨filled, hfill, rfl⟩ := Option.map_eq_some_iff.mp hstart
  rw [Scan.fill, if_neg (show ¬ scan.filesize ≤ (scan.opened memory).readoffset from hsize.not_ge),
    if_neg (fun h => scan.blocksize_pos.not_ge h.1),
    if_pos (show (scan.opened memory).tailpointer = 0 from rfl)] at hfill
  obtain ⟨hfilled, hoffset, hout, -, hread⟩ :=
    (buffered_opened memory hsize).fillTo (Nat.zero_le _) (by omega) hfill
  obtain ⟨hhasher, hbuffer⟩ := fillTo_rest (Nat.zero_le _) hfill
  replace hoffset : filled.currentoffset = 0 := hoffset
  replace hout : filled.outpointer = 0 := hout
  have hsum := hfilled.readoffset
  have hle := hfilled.readoffset_le
  have hend : filled.readoffset = scan.filesize := by omega
  have hbytes :=
    hfilled.bytes_eq (show filled.outpointer + scan.filesize ≤ filled.tailpointer by omega)
  rw [hout, hoffset] at hbytes
  have hchecksum : (scan.computeCurrentChecksum filled).checksum = crcCompute (scan.window 0) := by
    rw [Scan.computeCurrentChecksum, if_pos (show filled.hasher = true from hhasher)]
    dsimp only
    rw [hoffset, Nat.sub_zero, Nat.min_eq_right hshort.le, hbytes,
      window_eq (Nat.zero_le _) (by omega), Nat.sub_zero]
  refine ⟨hbuffered, ?_, ?_, ?_, hchecksum, ?_⟩
  all_goals rw [computeCurrentChecksum_eq]
  · exact hoffset
  · exact hout
  · exact hend
  · exact hbuffer _ le_rfl

/-- A file shorter than a block fills the first half of the buffer, and a step takes in a byte of
the second, which nothing has written: the checksum is that of the window just when this byte
happens to be zero. -/
theorem short_step_checksum (memory : ℕ → BitVec 8) (hsize : 1 < scan.filesize)
    (hshort : scan.filesize < scan.blocksize) (hrun : scan.run memory [1] = some s) :
    s.checksum = crcCompute (scan.window s.currentoffset) ↔ memory scan.blocksize = 0#8 := by
  obtain ⟨first, hstart, hjumps⟩ := Option.bind_eq_some_iff.mp hrun
  obtain ⟨next, hstep, hdone⟩ := Option.bind_eq_some_iff.mp hjumps
  obtain rfl := Option.some.inj hdone
  obtain ⟨hbuffered, hoffset, hout, hread, hsum, hbuffer⟩ := start_short (by omega) hshort hstart
  rw [Scan.jump, if_neg (by omega), if_neg one_ne_zero, if_pos rfl, step_of_read hread (by omega)]
    at hstep
  obtain rfl := Option.some.inj hstep
  obtain ⟨m, hm⟩ : ∃ m, scan.blocksize = m + 1 := ⟨scan.blocksize - 1, by omega⟩
  obtain ⟨hold, hnew⟩ := window_succ 0 hm
  have htail := hbuffered.readoffset
  have hfirst : first.buffer first.outpointer = scan.byte 0 := by
    rw [hbuffered.buffer _ le_rfl (by omega), Nat.sub_self, hoffset]
  have hlast : first.buffer first.inpointer = memory scan.blocksize := by
    rw [hbuffered.inpointer, hout, Nat.zero_add, hbuffer]
  have hslide := crcSlideChar_eq (scan.byte 0) (memory scan.blocksize)
    ((List.range m).map fun j => scan.byte (0 + 1 + j))
  rw [List.length_map, List.length_range, ← hm] at hslide
  rw [checksum_slide, offset_slide]
  dsimp only
  rw [hoffset, hsum, hfirst, hlast, hold, hslide, hnew, byte_of_le (by omega)]
  exact crcCompute_concat_inj

lemma oneBlock_pos : 0 < 3 := by decide

def oneBlock : Scan where
  file := [1#8, 2#8]
  blocksize := 3
  read := fun _ _ => true
  blocksize_pos := oneBlock_pos

theorem short_step_checksum_nine : ∃ s, oneBlock.run (fun _ => 9#8) [1] = some s ∧
    s.checksum ≠ crcCompute (oneBlock.window s.currentoffset) := by
  refine ⟨_, rfl, fun h => ?_⟩
  have hzero := (@short_step_checksum oneBlock _ (fun _ => 9#8) (by decide) (by decide) rfl).mp h
  exact absurd hzero (by decide)

end Short

end DriveIntegrity.Parity
