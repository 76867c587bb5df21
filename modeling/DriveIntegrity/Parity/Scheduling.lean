import DriveIntegrity.Parity.Controller

/-! What every order of the threads' steps keeps. -/

namespace DriveIntegrity.Parity.Controller

open Batches Finset

variable {R : Type}

section Invariant

variable (pass : Pass R) (first : ℕ)

def Pass.areaOf (batch : ℕ) : ℕ :=
  (first + batch) % pass.areas

def Pass.share (r : ℕ) : Share :=
  pass.shares.getD r ⟨0, []⟩

/-- The inputs before a batch; a flush that ends one is no input. -/
def Pass.start (history : List Bool) (batch : ℕ) : ℕ :=
  min (Batches.start history batch) pass.inputs

/-- The entry of the transfer queue for what comes after `history`. -/
def Pass.entry (history : List Bool) (last : Bool) : TransferData :=
  if history.length < pass.inputs then
    ⟨some (history.length % pass.buffers), pass.areaOf first (ended history), since history,
      if last then since history + 1 else 0⟩
  else ⟨none, pass.areaOf first (ended history), 0, if last then since history else 0⟩

/-- The request for a batch and a share. -/
def Pass.req (history : List Bool) (turn : ℕ × ℕ) : ComputeReq :=
  ⟨pass.areaOf first turn.1, pass.start history (turn.1 + 1) - pass.start history turn.1,
    decide (0 < turn.1),
    (pass.share turn.2).cells⟩

/-- All shares of a batch have been computed; `times r` batches have had share `r` computed. -/
def Pass.Complete (times : ℕ → ℕ) (batch : ℕ) : Prop :=
  ∀ r < pass.shares.length, batch < times r

/-- The history of what the transfer thread is done with; a batch that it sends requests for counts
as done. -/
def handled (transfer : Transfer) (waiting : ℕ) (history : List Bool) : List Bool :=
  match transfer with
  | .copying _ => history.drop waiting
  | .sending _ _ => history.drop (waiting - 1)

/-- The batches for which share `r` has been sent. -/
def given (transfer : Transfer) (waiting : ℕ) (history : List Bool) (r : ℕ) : ℕ :=
  match transfer with
  | .copying _ => ended (history.drop waiting)
  | .sending _ sent =>
      if r < sent then ended (history.drop waiting) + 1 else ended (history.drop waiting)

/-- The words done of the request for share `r` that is being computed. -/
def Pass.inWork (turns : ℕ → List (ℕ × ℕ)) (done : ℕ → ℕ) (r : ℕ) : ℕ :=
  match turns (pass.share r).thread with
  | [] => 0
  | turn :: _ => if turn.2 = r then done (pass.share r).thread else 0

structure Progress (main : MainThread) (added area inputs : ℕ) (transfers : List TransferData)
    (history : List Bool) :
    Prop where
  added_eq : added = min history.length pass.inputs
  reading : main = .reading → history.length ≤ pass.inputs
  adding : main = .adding → history.length < pass.inputs
  ending : main = .ending ∨ main = .ended → pass.inputs ≤ history.length ∧ since history = 0
  area_eq : area = pass.areaOf first (ended history)
  inputs_eq : inputs = since history
  transfers_eq : transfers = recent (pass.entry first) history transfers.length
  transfers_le : transfers.length ≤ history.length
  flushed : ∀ x < history.length, pass.inputs ≤ x → x = pass.inputs ∧ since (before history x) ≠ 0

/-- A buffer keeps its input until that is transferred. -/
structure Buffers (main : MainThread) (busy : ℕ → Bool) (buffer : ℕ → ℕ → R) (waiting : ℕ)
    (history : List Bool) :
    Prop where
  held : ∀ x, history.length - waiting ≤ x → x < history.length → x < pass.inputs →
    busy (x % pass.buffers) = true ∧ buffer (x % pass.buffers) = pass.data x
  apart : ∀ x y, history.length - waiting ≤ x → x < y → y < history.length → y < pass.inputs →
    x % pass.buffers ≠ y % pass.buffers
  adding : main = .adding → busy (history.length % pass.buffers) = false ∧
    buffer (history.length % pass.buffers) = pass.data history.length
  used : ∀ b, busy b = true →
    ∃ x, history.length - waiting ≤ x ∧ x < history.length ∧ x < pass.inputs ∧ x % pass.buffers = b

/-- An area is locked until its batch is complete. -/
structure Locks (isActive : ℕ → Bool) (closing : ℕ → Option ℕ) (times : ℕ → ℕ)
    (history : List Bool) : Prop where
  locked : ∀ k < ended history, ¬ pass.Complete times k → isActive (pass.areaOf first k) = true
  complete : ∀ thread area, closing thread = some area →
    isActive area = true ∧ ∀ k < ended history, pass.areaOf first k = area → pass.Complete times k
  once : ∀ thread thread' area, closing thread = some area → closing thread' = some area →
    thread = thread'
  used : 0 < pass.shares.length → ∀ area, isActive area = true →
    (∃ k < ended history, pass.areaOf first k = area ∧ ¬ pass.Complete times k) ∨ ∃ thread,
    closing thread = some area
  apart : ∀ j k, j < k → k ≤ ended history → pass.areaOf first j = pass.areaOf first k →
    ¬ pass.Complete times j →
    k = ended history ∧ since history = 0

/-- An area has the inputs of its batch until that is complete. -/
structure Contents (staging : ℕ → Staging R) (transfer : Transfer) (waiting : ℕ) (times : ℕ → ℕ)
    (history : List Bool) :
    Prop where
  coeffs : ∀ x < history.length, x < pass.inputs →
    ¬ pass.Complete times (ended (before history x)) →
    (staging (pass.areaOf first (ended (before history x)))).procCoeffs (since (before history x)) =
      pass.coeffs x
  words : ∀ x < (handled transfer waiting history).length, x < pass.inputs →
    ¬ pass.Complete times (ended (before history x)) → ∀ w < pass.words,
    (staging (pass.areaOf first (ended (before history x)))).src (since (before history x)) w =
      pass.data x w
  copying : ∀ words, transfer = .copying words → words ≤ pass.words ∧ (waiting = 0 → words = 0) ∧
    ∀ x, x + waiting = history.length → x < history.length → x < pass.inputs → ∀ w < words,
    (staging (pass.areaOf first (ended (before history x)))).src (since (before history x)) w =
      pass.data x w

/-- The requests of a share are computed in the order of the batches. -/
structure Queues (transfer : Transfer) (waiting : ℕ) (processingAdd : Bool)
    (staging : ℕ → Staging R)
    (queue : ℕ → List ComputeReq) (times : ℕ → ℕ) (turns : ℕ → List (ℕ × ℕ))
    (history : List Bool) : Prop where
  sending : ∀ add sent, transfer = .sending add sent → sent ≤ pass.shares.length ∧ 0 < waiting ∧
    add = decide (0 < ended (history.drop waiting)) ∧
    ended (history.drop (waiting - 1)) = ended (history.drop waiting) + 1
  processingAdd_eq : processingAdd = decide (0 < ended (handled transfer waiting history))
  turns_of : ∀ r < pass.shares.length,
    Turns (turns (pass.share r).thread) r (times r) (given transfer waiting history r)
  mem_turns : ∀ thread, ∀ turn ∈ turns thread, turn.2 < pass.shares.length ∧
    (pass.share turn.2).thread = thread
  times_le : ∀ r < pass.shares.length, times r ≤ given transfer waiting history r
  queue_eq : ∀ thread, queue thread = (turns thread).map (pass.req first history)
  refs : ∀ k < ended (handled transfer waiting history), ¬ pass.Complete times k →
    (staging (pass.areaOf first k)).procRefs = #{r ∈ range pass.shares.length | times r ≤ k}

/-- Every word has the inputs of the batches that have been computed for it. -/
structure Outputs [Semiring R] (memProcessing : ℕ × ℕ → R) (done : ℕ → ℕ) (times : ℕ → ℕ)
    (turns : ℕ → List (ℕ × ℕ)) (history : List Bool) : Prop where
  done_le : ∀ thread, done thread ≤ match turns thread with
    | [] => 0
    | turn :: _ => (pass.share turn.2).cells.length
  sum : ∀ r < pass.shares.length, ∀ i cell, (pass.share r).cells[i]? = some cell →
    ∀ n, n = times r + (if i < pass.inWork turns done r then 1 else 0) → 0 < n →
    memProcessing cell = ∑ x ∈ range (pass.start history n),
    pass.coeffs x cell.2 * pass.data x cell.1

/-- The invariant, with the history of what was added, how often the shares were computed and the
batch and share of each request that is waiting. -/
structure Invariant [Semiring R] (s : State R) (history : List Bool) (times : ℕ → ℕ)
    (turns : ℕ → List (ℕ × ℕ)) : Prop where
  progress : Progress pass first s.main s.added s.currentStagingArea s.currentStagingInputs
    s.transfers history
  buffers : Buffers pass s.main s.busy s.transferbuffer s.transfers.length history
  locks : Locks pass first (fun a => (s.staging a).isActive)
    (fun t => (s.workers t).closing) times history
  contents : Contents pass first s.staging s.transfer s.transfers.length times history
  queues : Queues pass first s.transfer s.transfers.length s.processingAdd s.staging
    (fun t => (s.workers t).queue) times
    turns history
  outputs : Outputs pass s.memProcessing (fun t => (s.workers t).done) times turns history

end Invariant

section Lemmas

variable {pass : Pass R} {first : ℕ} {history : List Bool} {last : Bool} {times : ℕ → ℕ}
  {turns : ℕ → List (ℕ × ℕ)}

lemma start_extend {k : ℕ} (hk : k ≤ ended history) :
    pass.start (last :: history) k = pass.start history k := by
  rw [Pass.start, start_cons hk, Pass.start]

lemma entry_inBufId :
    (pass.entry first history last).inBufId = pass.areaOf first (ended history) := by
  rw [Pass.entry]
  split_ifs <;> rfl

lemma entry_src : (pass.entry first history last).src =
    if history.length < pass.inputs then some (history.length % pass.buffers) else none := by
  rw [Pass.entry, apply_ite TransferData.src]

lemma entry_submitInBufs_false : (pass.entry first history false).submitInBufs = 0 := by
  rw [Pass.entry, apply_ite TransferData.submitInBufs]
  exact ite_self 0

lemma entry_submitInBufs_true (hle : history.length ≤ pass.inputs) :
    (pass.entry first history true).submitInBufs =
      min (history.length + 1) pass.inputs - pass.start history (ended history) := by
  have hstart := start_ended_add_since history
  rw [Pass.entry, apply_ite TransferData.submitInBufs, if_pos rfl, if_pos rfl, Pass.start]
  split_ifs with hin
  · dsimp only
    rw [Nat.min_eq_left hin, Nat.min_eq_left (by omega)]
    omega
  · dsimp only
    rw [Nat.min_eq_right (by omega), Nat.min_eq_left (by omega)]
    omega

lemma req_extend {turn : ℕ × ℕ} (hturn : turn.1 < ended history) :
    pass.req first (last :: history) turn = pass.req first history turn := by
  rw [Pass.req, start_extend hturn, start_extend hturn.le, Pass.req]

section Updates

variable {ι α β : Type} [DecidableEq ι]

lemma comp_update (p : α → β) (f : ι → α) (i : ι) (v : α) :
    (fun t => p (Function.update f i v t)) = Function.update (fun t => p (f t)) i (p v) :=
  funext (Function.apply_update (fun _ => p) f i v)

lemma update_same (p : α → β) (f : ι → α) {i : ι} (v : α) (h : p v = p (f i)) (t : ι) :
    p (Function.update f i v t) = p (f t) := by
  rw [Function.apply_update (fun _ => p), h]
  exact congrFun (Function.update_eq_self i fun t => p (f t)) t

variable (f : ℕ → Staging R) (area place word n a : ℕ)

lemma update_setIsActive (v : Bool) :
    (Function.update f area ((f area).setIsActive v) a).src = (f a).src ∧
    (Function.update f area ((f area).setIsActive v) a).procCoeffs = (f a).procCoeffs ∧
    (Function.update f area ((f area).setIsActive v) a).procRefs = (f a).procRefs :=
  ⟨update_same Staging.src f ((f area).setIsActive v) rfl a,
    update_same Staging.procCoeffs f ((f area).setIsActive v) rfl a,
    update_same Staging.procRefs f ((f area).setIsActive v) rfl a⟩

lemma update_setProcRefs :
    (Function.update f area ((f area).setProcRefs n) a).src = (f a).src ∧
    (Function.update f area ((f area).setProcRefs n) a).procCoeffs = (f a).procCoeffs ∧
    (Function.update f area ((f area).setProcRefs n) a).isActive = (f a).isActive :=
  ⟨update_same Staging.src f ((f area).setProcRefs n) rfl a,
    update_same Staging.procCoeffs f ((f area).setProcRefs n) rfl a,
    update_same Staging.isActive f ((f area).setProcRefs n) rfl a⟩

lemma update_setCoeffs (coeffs : ℕ → R) :
    (Function.update f area ((f area).setCoeffs place coeffs) a).src = (f a).src ∧
    (Function.update f area ((f area).setCoeffs place coeffs) a).isActive = (f a).isActive ∧
    (Function.update f area ((f area).setCoeffs place coeffs) a).procRefs = (f a).procRefs :=
  ⟨update_same Staging.src f ((f area).setCoeffs place coeffs) rfl a,
    update_same Staging.isActive f ((f area).setCoeffs place coeffs) rfl a,
    update_same Staging.procRefs f ((f area).setCoeffs place coeffs) rfl a⟩

lemma update_setWord (value : R) :
    (Function.update f area ((f area).setWord place word value) a).procCoeffs = (f a).procCoeffs ∧
    (Function.update f area ((f area).setWord place word value) a).isActive = (f a).isActive ∧
    (Function.update f area ((f area).setWord place word value) a).procRefs = (f a).procRefs :=
  ⟨update_same Staging.procCoeffs f ((f area).setWord place word value) rfl a,
    update_same Staging.isActive f ((f area).setWord place word value) rfl a,
    update_same Staging.procRefs f ((f area).setWord place word value) rfl a⟩

variable (workers : ℕ → Worker) (thread t : ℕ)

lemma update_push (req : ComputeReq) :
    (Function.update workers thread ((workers thread).push req) t).closing = (workers t).closing ∧
    (Function.update workers thread ((workers thread).push req) t).done = (workers t).done :=
  ⟨update_same Worker.closing workers ((workers thread).push req) rfl t,
    update_same Worker.done workers ((workers thread).push req) rfl t⟩

lemma update_advance :
    (Function.update workers thread (workers thread).advance t).closing = (workers t).closing ∧
    (Function.update workers thread (workers thread).advance t).queue = (workers t).queue :=
  ⟨update_same Worker.closing workers (workers thread).advance rfl t,
    update_same Worker.queue workers (workers thread).advance rfl t⟩

lemma update_close :
    (Function.update workers thread (workers thread).close t).queue = (workers t).queue ∧
    (Function.update workers thread (workers thread).close t).done = (workers t).done :=
  ⟨update_same Worker.queue workers (workers thread).close rfl t,
    update_same Worker.done workers (workers thread).close rfl t⟩

end Updates

lemma Pass.Complete.mono {times' : ℕ → ℕ} {k : ℕ} (h : pass.Complete times k)
    (hle : ∀ r, times r ≤ times' r) :
    pass.Complete times' k :=
  fun r hr => (h r hr).trans_le (hle r)

lemma Progress.head {main : MainThread} {added area inputs : ℕ} {data : TransferData}
    {rest : List TransferData}
    (h : Progress pass first main added area inputs (data :: rest) history) :
    ∃ x last, x + (rest.length + 1) = history.length ∧
      before history (x + 1) = last :: before history x ∧
      data = pass.entry first (before history x) last ∧
      rest = recent (pass.entry first) history rest.length := by
  have hle := h.transfers_le
  have heq := h.transfers_eq
  rw [List.length_cons] at hle heq
  rw [recent_succ _ hle, List.cons.injEq] at heq
  refine ⟨history.length - (rest.length + 1), history[rest.length], by omega, ?_, ?_, heq.2⟩
  · rw [before, before, show history.length - (history.length - (rest.length + 1) + 1) =
      rest.length by omega,
      show history.length - (history.length - (rest.length + 1)) = rest.length + 1 by omega]
    exact List.drop_eq_getElem_cons hle
  · rw [before, show history.length - (history.length - (rest.length + 1)) =
      rest.length + 1 by omega]
    exact heq.1

end Lemmas

section Reading

variable {pass : Pass R} {first : ℕ} {main main' : MainThread} {busy : ℕ → Bool}
  {buffer : ℕ → ℕ → R} {waiting : ℕ} {history : List Bool}

lemma Buffers.move (h : Buffers pass main busy buffer waiting history) (hmain : main' ≠ .adding) :
    Buffers pass main' busy buffer waiting history :=
  { h with adding := fun heq => absurd heq hmain }

lemma Buffers.read (h : Buffers pass main busy buffer waiting history)
    (havail : busy (history.length % pass.buffers) = false) :
    Buffers pass .adding busy
      (Function.update buffer (history.length % pass.buffers) (pass.data history.length)) waiting
      history := by
  refine { h with held := fun x hx hlt hin => ?_, adding := fun _ =>
    ⟨havail, Function.update_self ..⟩ }
  obtain ⟨hbusy, hbuffer⟩ := h.held x hx hlt hin
  have hne : x % pass.buffers ≠ history.length % pass.buffers := fun heq => by
    rw [heq, havail] at hbusy
    exact Bool.noConfusion hbusy
  exact ⟨hbusy, by rw [Function.update_of_ne hne, hbuffer]⟩

lemma Buffers.add (h : Buffers pass .adding busy buffer waiting history)
    (hwaiting : waiting ≤ history.length) (hin : history.length < pass.inputs) (last : Bool) :
    Buffers pass .reading (Function.update busy (history.length % pass.buffers) true)
      buffer (waiting + 1)
      (last :: history) := by
  obtain ⟨havail, hbuffer⟩ := h.adding rfl
  have hfrom : (last :: history).length - (waiting + 1) = history.length - waiting := by
    rw [List.length_cons]
    omega
  have hother : ∀ x, history.length - waiting ≤ x → x < history.length → x < pass.inputs →
      x % pass.buffers ≠ history.length % pass.buffers := fun x hx hlt hx' heq => by
    have hbusy := (h.held x hx hlt hx').1
    rw [heq, havail] at hbusy
    exact Bool.noConfusion hbusy
  refine ⟨fun x hx hlt hx' => ?_, fun x y hx hxy hlt hy => ?_, (nomatch ·), fun b hb => ?_⟩
  · rw [hfrom] at hx
    rw [List.length_cons] at hlt
    rcases Nat.lt_succ_iff_lt_or_eq.mp hlt with hlt | rfl
    · rw [Function.update_of_ne (hother x hx hlt hx')]
      exact h.held x hx hlt hx'
    · exact ⟨Function.update_self .., hbuffer⟩
  · rw [hfrom] at hx
    rw [List.length_cons] at hlt
    rcases Nat.lt_succ_iff_lt_or_eq.mp hlt with hlt | rfl
    · exact h.apart x y hx hxy hlt hy
    · exact hother x hx hxy (by omega)
  · rw [hfrom, List.length_cons]
    rcases eq_or_ne b (history.length % pass.buffers) with rfl | hne
    · exact ⟨history.length, by omega, Nat.lt_succ_self _, hin, rfl⟩
    · rw [Function.update_of_ne hne] at hb
      obtain ⟨x, hx, hlt, hx', rfl⟩ := h.used b hb
      exact ⟨x, hx, by omega, hx', rfl⟩

lemma Buffers.flush (h : Buffers pass main busy buffer waiting history)
    (hwaiting : waiting ≤ history.length)
    (hall : pass.inputs ≤ history.length) (last : Bool) (hmain : main' ≠ .adding) :
    Buffers pass main' busy buffer (waiting + 1) (last :: history) := by
  have hfrom : (last :: history).length - (waiting + 1) = history.length - waiting := by
    rw [List.length_cons]
    omega
  refine ⟨fun x hx hlt hx' => h.held x (hfrom ▸ hx) (by omega) hx',
    fun x y hx hxy hlt hy => h.apart x y (hfrom ▸ hx) hxy (by omega) hy,
    fun heq => absurd heq hmain, fun b hb => ?_⟩
  obtain ⟨x, hx, hlt, hx', rfl⟩ := h.used b hb
  exact ⟨x, hfrom ▸ hx, by rw [List.length_cons]; omega, hx', rfl⟩

lemma Buffers.notify (h : Buffers pass main busy buffer (waiting + 1) history)
    (hwaiting : waiting + 1 ≤ history.length) (hin : history.length - (waiting + 1) < pass.inputs) :
    Buffers pass main (Function.update busy ((history.length - (waiting + 1)) % pass.buffers) false)
      buffer waiting
      history := by
  refine ⟨fun x hx hlt hx' => ?_, fun x y hx => h.apart x y (by omega), fun hadding => ?_,
    fun b hb => ?_⟩
  · rw [Function.update_of_ne (h.apart _ x le_rfl (by omega) hlt hx').symm]
    exact h.held x (by omega) hlt hx'
  · have hbusy := (h.held (history.length - (waiting + 1)) le_rfl (by omega) hin).1
    obtain ⟨havail, hbuffer⟩ := h.adding hadding
    refine ⟨?_, hbuffer⟩
    rw [Function.update_of_ne fun heq => by
      rw [heq, hbusy] at havail
      exact Bool.noConfusion havail]
    exact havail
  · rcases eq_or_ne b ((history.length - (waiting + 1)) % pass.buffers) with rfl | hne
    · rw [Function.update_self] at hb
      exact Bool.noConfusion hb
    · rw [Function.update_of_ne hne] at hb
      obtain ⟨x, hx, hlt, hx', rfl⟩ := h.used b hb
      have hx0 : x ≠ history.length - (waiting + 1) := fun heq => hne (by rw [heq])
      exact ⟨x, by omega, hlt, hx', rfl⟩

lemma Buffers.notify_flush (h : Buffers pass main busy buffer (waiting + 1) history)
    (hall : pass.inputs ≤ history.length - (waiting + 1)) :
    Buffers pass main busy buffer waiting history := by
  refine ⟨fun x hx hlt hx' => by omega, fun x y hx => h.apart x y (by omega), h.adding,
    fun b hb => ?_⟩
  obtain ⟨x, hx, hlt, hx', rfl⟩ := h.used b hb
  omega

end Reading

section Adding

variable {pass : Pass R} {first : ℕ} {main main' : MainThread} {added area inputs : ℕ}
  {transfers : List TransferData} {history : List Bool}

lemma nextArea_areaOf (k : ℕ) :
    pass.nextArea (pass.areaOf first k) = pass.areaOf first (k + 1) := by
  have hlt : (first + k) % pass.areas < pass.areas := Nat.mod_lt _ pass.areas_pos
  rw [Pass.nextArea, Pass.areaOf, Pass.areaOf, ← Nat.add_assoc, ← Nat.mod_add_mod (first + k)]
  split_ifs with hend
  · rw [hend, Nat.mod_self]
  · rw [Nat.mod_eq_of_lt (show (first + k) % pass.areas + 1 < pass.areas by omega)]

lemma Progress.read (h : Progress pass first .reading added area inputs transfers history)
    (hmore : added < pass.inputs) :
    Progress pass first .adding added area inputs transfers history := by
  have := h.added_eq
  exact { h with reading := (nomatch ·), adding := fun _ => by omega, ending := by simp }

lemma Progress.endInput (h : Progress pass first .reading added area inputs transfers history)
    (hall : added = pass.inputs) (hinputs : inputs = 0) :
    Progress pass first .ending added area inputs transfers history := by
  have := h.added_eq
  have := h.inputs_eq
  exact { h with reading := (nomatch ·), adding := (nomatch ·), ending := fun _ =>
    ⟨by omega, by omega⟩ }

lemma Progress.finish (h : Progress pass first .ending added area inputs transfers history) :
    Progress pass first .ended added area inputs transfers history :=
  { h with reading := (nomatch ·), adding := (nomatch ·), ending := fun _ => h.ending (Or.inl rfl) }

lemma Progress.added_length (h : Progress pass first main added area inputs transfers history)
    (hmain : main = .reading ∨ main = .adding) : added = history.length := by
  have hadded := h.added_eq
  rcases hmain with hmain | hmain
  · have := h.reading hmain
    omega
  · have := h.adding hmain
    omega

lemma Progress.transfers_append (h : Progress pass first main added area inputs transfers history)
    (last : Bool) :
    transfers ++ [pass.entry first history last] =
      recent (pass.entry first) (last :: history)
        (transfers ++ [pass.entry first history last]).length := by
  rw [List.length_append, List.length_singleton, recent_cons, ← h.transfers_eq]

lemma Progress.add (h : Progress pass first .adding added area inputs transfers history)
    (last : Bool) :
    Progress pass first .reading (added + 1) (if last then pass.nextArea area else area)
      (if last then 0 else inputs + 1) (transfers ++ [pass.entry first history last])
      (last :: history) := by
  have hlt := h.adding rfl
  have hadded := h.added_eq
  refine ⟨by rw [List.length_cons]; omega, fun _ => hlt, (nomatch ·), by simp, ?_, ?_,
    h.transfers_append last, ?_,
    fun x hx hin => ?_⟩
  · rw [h.area_eq, nextArea_areaOf]
    cases last <;> rfl
  · rw [h.inputs_eq]
    cases last <;> rfl
  · have := h.transfers_le
    rw [List.length_append, List.length_singleton, List.length_cons]
    omega
  · rw [List.length_cons] at hx
    rw [before_cons (by omega)]
    exact h.flushed x (by omega) hin

lemma Progress.flush (h : Progress pass first .reading added area inputs transfers history)
    (hall : added = pass.inputs) (hinputs : inputs ≠ 0) :
    Progress pass first .ending added (pass.nextArea area) 0
      (transfers ++ [pass.entry first history true])
      (true :: history) := by
  have hreading := h.reading rfl
  have hadded := h.added_eq
  refine ⟨by rw [List.length_cons]; omega, (nomatch ·), (nomatch ·),
    fun _ => ⟨by rw [List.length_cons]; omega, rfl⟩, ?_,
    rfl, h.transfers_append true, ?_, fun x hx hin => ?_⟩
  · rw [h.area_eq, nextArea_areaOf]
    rfl
  · have := h.transfers_le
    rw [List.length_append, List.length_singleton, List.length_cons]
    omega
  · rw [List.length_cons] at hx
    rw [before_cons (by omega)]
    rcases Nat.lt_succ_iff_lt_or_eq.mp hx with hlt | rfl
    · exact h.flushed x hlt hin
    · rw [before_length, ← h.inputs_eq]
      exact ⟨by omega, hinputs⟩

lemma Progress.notify {data : TransferData} {rest : List TransferData}
    (h : Progress pass first main added area inputs (data :: rest) history) :
    Progress pass first main added area inputs rest history := by
  obtain ⟨x, last, hx, -, -, hrest⟩ := h.head
  exact { h with transfers_eq := hrest, transfers_le := by omega }

end Adding

section Locking

variable {pass : Pass R} {first : ℕ} {isActive : ℕ → Bool} {closing : ℕ → Option ℕ}
  {times times' : ℕ → ℕ} {history : List Bool}

lemma Locks.complete_of_free (h : Locks pass first isActive closing times history)
    (hfree : isActive (pass.areaOf first (ended history)) = false) {k : ℕ} (hk : k < ended history)
    (harea : pass.areaOf first k = pass.areaOf first (ended history)) : pass.Complete times k := by
  by_contra hincomplete
  have hactive := h.locked k hk hincomplete
  rw [harea, hfree] at hactive
  exact Bool.noConfusion hactive

lemma Locks.stay (h : Locks pass first isActive closing times history)
    (hfree : isActive (pass.areaOf first (ended history)) = false) :
    Locks pass first isActive closing times (false :: history) := by
  refine ⟨h.locked, h.complete, h.once, h.used, fun j k hjk hk harea hj => ?_⟩
  obtain ⟨rfl, -⟩ := h.apart j k hjk hk harea hj
  exact absurd (h.complete_of_free hfree hjk harea) hj

lemma Locks.submit (h : Locks pass first isActive closing times history)
    (hfree : isActive (pass.areaOf first (ended history)) = false)
    (hfresh : 0 < pass.shares.length → ¬ pass.Complete times (ended history)) :
    Locks pass first
      (Function.update isActive (pass.areaOf first (ended history)) true) closing times
      (true :: history) := by
  refine ⟨fun k hk hincomplete => ?_, fun thread area hclosing => ?_, h.once,
    fun hshares area hactive => ?_,
    fun j k hjk hk harea hj => ?_⟩
  · rw [Function.update_apply]
    split_ifs with harea
    · rfl
    · refine h.locked k
        (lt_of_le_of_ne (Nat.le_of_lt_succ hk) fun heq => harea (by rw [heq])) hincomplete
  · obtain ⟨hactive, hcomplete⟩ := h.complete thread area hclosing
    have hne : area ≠ pass.areaOf first (ended history) := fun heq => by
      rw [heq, hfree] at hactive
      exact Bool.noConfusion hactive
    refine ⟨by rw [Function.update_of_ne hne, hactive], fun k hk harea => ?_⟩
    refine hcomplete k (lt_of_le_of_ne (Nat.le_of_lt_succ hk) fun heq => hne ?_) harea
    rw [← harea, heq]
  · rcases eq_or_ne area (pass.areaOf first (ended history)) with rfl | hne
    · exact Or.inl ⟨ended history, Nat.lt_succ_self _, rfl, hfresh hshares⟩
    · rw [Function.update_of_ne hne] at hactive
      refine (h.used hshares area hactive).imp_left ?_
      rintro ⟨k, hk, harea, hincomplete⟩
      exact ⟨k, hk.trans (Nat.lt_succ_self _), harea, hincomplete⟩
  · rcases hk.eq_or_lt with rfl | hk
    · exact ⟨rfl, rfl⟩
    · obtain ⟨rfl, -⟩ := h.apart j k hjk (Nat.le_of_lt_succ hk) harea hj
      exact absurd (h.complete_of_free hfree hjk harea) hj

lemma Locks.setIsActive {staging staging' : ℕ → Staging R}
    (h : Locks pass first (fun a => (staging a).isActive) closing times history)
    (hstaging : ∀ a, (staging' a).isActive = (staging a).isActive)
    (hfree : (staging (pass.areaOf first (ended history))).isActive = false)
    (hfresh : 0 < pass.shares.length → ¬ pass.Complete times (ended history)) :
    Locks pass first (fun a => (Function.update staging' (pass.areaOf first (ended history))
      ((staging' (pass.areaOf first (ended history))).setIsActive true) a).isActive) closing times
        (true :: history) := by
  rw [comp_update, funext hstaging]
  exact h.submit hfree hfresh

lemma Locks.progress (h : Locks pass first isActive closing times history)
    (hle : ∀ r, times r ≤ times' r) (hsame : ∀ k, pass.Complete times' k → pass.Complete times k) :
    Locks pass first isActive closing times' history := by
  refine ⟨fun k hk hk' => h.locked k hk (mt (·.mono hle) hk'),
    fun thread area hclosing => ?_, h.once,
    fun hshares area hactive => ?_, fun j k hjk hk harea hj =>
      h.apart j k hjk hk harea (mt (·.mono hle) hj)⟩
  · obtain ⟨hactive, hcomplete⟩ := h.complete thread area hclosing
    exact ⟨hactive, fun k hk harea => (hcomplete k hk harea).mono hle⟩
  · refine (h.used hshares area hactive).imp_left ?_
    rintro ⟨k, hk, harea, hincomplete⟩
    exact ⟨k, hk, harea, mt (hsame k) hincomplete⟩

lemma Locks.release (h : Locks pass first isActive closing times history)
    (hle : ∀ r, times r ≤ times' r) {k : ℕ}
    (hk : k < ended history) (hincomplete : ¬ pass.Complete times k)
    (hcomplete : pass.Complete times' k)
    (hsame : ∀ j, j ≠ k → pass.Complete times' j → pass.Complete times j) {thread : ℕ}
    (hnone : closing thread = none) :
    Locks pass first isActive (Function.update closing thread (some (pass.areaOf first k)))
      times' history := by
  have hother {j : ℕ} (hj : j < ended history) (harea : pass.areaOf first j = pass.areaOf first k) :
      pass.Complete times' j := by
    rcases lt_trichotomy j k with hlt | rfl | hgt
    · by_contra hj'
      obtain ⟨rfl, -⟩ := h.apart j k hlt hk.le harea (mt (·.mono hle) hj')
      exact lt_irrefl _ hk
    · exact hcomplete
    · obtain ⟨rfl, -⟩ := h.apart k j hgt hj.le harea.symm hincomplete
      exact absurd hj (lt_irrefl _)
  have hfirst {t : ℕ} (ht : closing t = some (pass.areaOf first k)) : False :=
    hincomplete ((h.complete t _ ht).2 k hk rfl)
  refine ⟨fun j hj hj' => h.locked j hj (mt (·.mono hle) hj'), fun t area ht => ?_,
    fun t t' area ht ht' => ?_,
    fun hshares area hactive => ?_, fun i j hij hj harea hi =>
      h.apart i j hij hj harea (mt (·.mono hle) hi)⟩
  · rcases eq_or_ne t thread with rfl | hne
    · rw [Function.update_self, Option.some.injEq] at ht
      subst ht
      exact ⟨h.locked k hk hincomplete, fun j hj harea => hother hj harea⟩
    · rw [Function.update_of_ne hne] at ht
      obtain ⟨hactive, hall⟩ := h.complete t area ht
      exact ⟨hactive, fun j hj harea => (hall j hj harea).mono hle⟩
  · rcases eq_or_ne t thread with rfl | hne <;> rcases eq_or_ne t' t with rfl | hne'
    · rfl
    · rw [Function.update_self, Option.some.injEq] at ht
      rw [Function.update_of_ne hne', ← ht] at ht'
      exact (hfirst ht').elim
    · rfl
    · rcases eq_or_ne t' thread with rfl | hne''
      · rw [Function.update_self, Option.some.injEq] at ht'
        rw [Function.update_of_ne hne, ← ht'] at ht
        exact (hfirst ht).elim
      · rw [Function.update_of_ne hne] at ht
        rw [Function.update_of_ne hne''] at ht'
        exact h.once t t' area ht ht'
  · rcases h.used hshares area hactive with ⟨j, hj, harea, hj'⟩ | ⟨t, ht⟩
    · rcases eq_or_ne j k with rfl | hne
      · exact Or.inr ⟨thread, by rw [Function.update_self, harea]⟩
      · exact Or.inl ⟨j, hj, harea, mt (hsame j hne) hj'⟩
    · have hne : t ≠ thread := fun heq => by
        rw [heq, hnone] at ht
        exact nomatch ht
      exact Or.inr ⟨t, by rw [Function.update_of_ne hne, ht]⟩

lemma Locks.close (h : Locks pass first isActive closing times history) {thread area : ℕ}
    (hclosing : closing thread = some area) :
    Locks pass first (Function.update isActive area false) (Function.update closing thread none)
      times history := by
  have hcomplete := (h.complete thread area hclosing).2
  refine ⟨fun k hk hk' => ?_, fun t a ht => ?_, fun t t' a ht ht' => ?_,
    fun hshares a hactive => ?_, h.apart⟩
  · rw [Function.update_of_ne fun heq => hk' (hcomplete k hk heq)]
    exact h.locked k hk hk'
  · have hne : t ≠ thread := fun heq => by
      rw [heq, Function.update_self] at ht
      exact nomatch ht
    rw [Function.update_of_ne hne] at ht
    rw [Function.update_of_ne fun heq : a = area => hne (h.once t thread a ht (heq ▸ hclosing))]
    exact h.complete t a ht
  · rw [Function.update_apply] at ht ht'
    split_ifs at ht ht'
    exact h.once t t' a ht ht'
  · rcases eq_or_ne a area with rfl | hne
    · rw [Function.update_self] at hactive
      exact Bool.noConfusion hactive
    · rw [Function.update_of_ne hne] at hactive
      refine (h.used hshares a hactive).imp_right ?_
      rintro ⟨t, ht⟩
      have hne' : t ≠ thread := fun heq => by
        rw [heq, hclosing, Option.some.injEq] at ht
        exact hne ht.symm
      exact ⟨t, by rw [Function.update_of_ne hne', ht]⟩

end Locking

section Transferring

variable {pass : Pass R} {first : ℕ} {staging staging' : ℕ → Staging R} {isActive : ℕ → Bool}
  {closing : ℕ → Option ℕ} {transfer : Transfer} {waiting : ℕ} {times times' : ℕ → ℕ}
  {history : List Bool}

lemma handled_extend (htransfer : ∀ add sent, transfer = .sending add sent → 0 < waiting)
    (last : Bool) :
    handled transfer (waiting + 1) (last :: history) = handled transfer waiting history := by
  cases transfer with
  | copying words => rfl
  | sending add sent =>
    obtain ⟨n, rfl⟩ := Nat.exists_eq_succ_of_ne_zero (htransfer add sent rfl).ne'
    rfl

lemma length_handled_le : (handled transfer waiting history).length ≤ history.length := by
  cases transfer <;> exact (List.length_drop ..).trans_le (Nat.sub_le ..)

lemma Contents.congr (h : Contents pass first staging transfer waiting times history)
    (hsrc : ∀ a, (staging' a).src = (staging a).src)
    (hcoeffs : ∀ a, (staging' a).procCoeffs = (staging a).procCoeffs) :
    Contents pass first staging' transfer waiting times history := by
  refine ⟨fun x hx hin hx' => ?_, fun x hx hin hx' w hw => ?_, fun words hcopying => ?_⟩
  · rw [hcoeffs]
    exact h.coeffs x hx hin hx'
  · rw [hsrc]
    exact h.words x hx hin hx' w hw
  · obtain ⟨hle, hnone, hpart⟩ := h.copying words hcopying
    refine ⟨hle, hnone, fun x hx hx' hin w hw => ?_⟩
    rw [hsrc]
    exact hpart x hx hx' hin w hw

/-- Two items share a place in an area only if the batch of the first one is complete. -/
lemma place_ne (first : ℕ) {x y : ℕ} (hxy : x < y) (hy : y ≤ history.length)
    (hincomplete : ¬ pass.Complete times (ended (before history x)))
    (hbatch : ended (before history x) < ended (before history y) →
      pass.areaOf first (ended (before history x)) = pass.areaOf first (ended (before history y)) →
      pass.Complete times (ended (before history x))) :
    ¬ (pass.areaOf first (ended (before history x)) = pass.areaOf first (ended (before history y)) ∧
      since (before history x) = since (before history y)) := by
  rintro ⟨harea, hplace⟩
  rcases (ended_before_mono hy hxy.le).eq_or_lt with heq | hlt
  · exact (since_before_lt hy hxy heq).ne hplace
  · exact hincomplete (hbatch hlt harea)

lemma Contents.add (h : Contents pass first staging transfer waiting times history)
    (hlocks : Locks pass first isActive closing times history)
    (hfree : isActive (pass.areaOf first (ended history)) = false)
    (htransfer : ∀ add sent, transfer = .sending add sent → 0 < waiting) (last : Bool) :
    Contents pass first (Function.update staging (pass.areaOf first (ended history))
        ((staging (pass.areaOf first (ended history))).setCoeffs (since history)
          (pass.coeffs history.length)))
      transfer (waiting + 1) times (last :: history) := by
  set area := pass.areaOf first (ended history) with harea
  refine ⟨fun x hx hin hx' => ?_, fun x hx hin hx' w hw => ?_, fun words hcopying => ?_⟩
  · rw [List.length_cons] at hx
    rw [before_cons (by omega)] at hx' ⊢
    rcases Nat.lt_succ_iff_lt_or_eq.mp hx with hlt | rfl
    · have hne := place_ne first hlt le_rfl hx' fun hbatch heq => by
        rw [before_length] at hbatch heq
        exact hlocks.complete_of_free hfree hbatch heq
      rw [before_length, ← harea] at hne
      rw [← h.coeffs x hlt hin hx', Function.update_apply]
      split_ifs with heq
      · rw [heq]
        exact Function.update_of_ne (fun hplace => hne ⟨heq, hplace⟩) ..
      · rfl
    · rw [before_length, Function.update_self]
      exact Function.update_self ..
  · rw [handled_extend htransfer] at hx
    rw [before_cons (hx.le.trans length_handled_le)] at hx' ⊢
    rw [(update_setCoeffs ..).1]
    exact h.words x hx hin hx' w hw
  · obtain ⟨hle, hnone, hpart⟩ := h.copying words hcopying
    refine ⟨hle, fun hzero => absurd hzero (Nat.succ_ne_zero _), fun x hx hx' hin w hw => ?_⟩
    rw [List.length_cons] at hx hx'
    rcases Nat.lt_succ_iff_lt_or_eq.mp hx' with hlt | rfl
    · rw [before_cons hlt.le, (update_setCoeffs ..).1]
      exact hpart x (by omega) hlt hin w hw
    · rw [hnone (by omega)] at hw
      exact absurd hw (Nat.not_lt_zero w)

lemma Contents.flush (h : Contents pass first staging transfer waiting times history)
    (htransfer : ∀ add sent, transfer = .sending add sent → 0 < waiting)
    (hall : pass.inputs ≤ history.length)
    (last : Bool) : Contents pass first staging transfer (waiting + 1) times (last :: history) := by
  refine ⟨fun x hx hin hx' => ?_, fun x hx hin hx' w hw => ?_, fun words hcopying => ?_⟩
  · have hlt : x < history.length := by omega
    rw [before_cons hlt.le] at hx' ⊢
    exact h.coeffs x hlt hin hx'
  · rw [handled_extend htransfer] at hx
    rw [before_cons (hx.le.trans length_handled_le)] at hx' ⊢
    exact h.words x hx hin hx' w hw
  · obtain ⟨hle, hnone, hpart⟩ := h.copying words hcopying
    refine ⟨hle, fun hzero => absurd hzero (Nat.succ_ne_zero _), fun x hx hx' hin w hw => ?_⟩
    rw [List.length_cons] at hx
    have hlt : x < history.length := by omega
    rw [before_cons hlt.le]
    exact hpart x (by omega) hlt hin w hw

lemma Contents.copy {words x : ℕ}
    (h : Contents pass first staging (.copying words) waiting times history)
    (hlocks : Locks pass first isActive closing times history) (hx : x + waiting = history.length)
    (hx' : x < history.length) (hwords : words < pass.words) :
    Contents pass first (Function.update staging (pass.areaOf first (ended (before history x)))
        ((staging (pass.areaOf first (ended (before history x)))).setWord
          (since (before history x)) words
          (pass.data x words)))
      (.copying (words + 1)) waiting times history := by
  set area := pass.areaOf first (ended (before history x)) with harea
  refine ⟨fun y hy hin hy' => ?_, fun y hy hin hy' w hw => ?_, fun words' hcopying => ?_⟩
  · rw [(update_setWord ..).1]
    exact h.coeffs y hy hin hy'
  · have hyx : y < x := by
      rw [handled, List.length_drop] at hy
      omega
    have hne := place_ne first hyx hx'.le hy' fun hbatch heq => by
      by_contra hincomplete
      obtain ⟨hlast, hsince⟩ := hlocks.apart _ _ hbatch (ended_before_le history x) heq hincomplete
      have hend := start_ended_add_since history
      have hstart := start_add_since_before hx'.le
      rw [hlast] at hstart
      omega
    rw [← harea] at hne
    rw [← h.words y hy hin hy' w hw, Function.update_apply]
    split_ifs with heq
    · rw [heq]
      exact congrFun (Function.update_of_ne (fun hplace => hne ⟨heq, hplace⟩) ..) w
    · rfl
  · obtain rfl : words + 1 = words' := Transfer.copying.inj hcopying
    obtain ⟨-, -, hpart⟩ := h.copying words rfl
    refine ⟨hwords, fun hzero => by omega, fun y hy hy' hin w hw => ?_⟩
    obtain rfl : y = x := by omega
    rw [← harea, Function.update_self, Staging.setWord]
    dsimp only
    rw [Function.update_self]
    rcases Nat.lt_succ_iff_lt_or_eq.mp hw with hlt | rfl
    · rw [Function.update_of_ne hlt.ne]
      exact hpart y hy hy' hin w hlt
    · exact Function.update_self ..

lemma Contents.handle {words : ℕ}
    (h : Contents pass first staging (.copying words) (waiting + 1) times history)
    (hwaiting : waiting + 1 ≤ history.length)
    (hcopied : history.length - (waiting + 1) < pass.inputs → words = pass.words) :
    ∀ x < (history.drop waiting).length, x < pass.inputs →
      ¬ pass.Complete times (ended (before history x)) →
      ∀ w < pass.words,
      (staging (pass.areaOf first (ended (before history x)))).src (since (before history x)) w =
        pass.data x w := by
  intro x hx hin hx' w hw
  rw [List.length_drop] at hx
  rcases Nat.lt_or_ge x (history.length - (waiting + 1)) with hlt | hge
  · exact h.words x (by rw [handled, List.length_drop]; exact hlt) hin hx' w hw
  · obtain rfl : x = history.length - (waiting + 1) := by omega
    rw [hcopied hin] at h
    exact (h.copying _ rfl).2.2 _ (by omega) (by omega) hin w hw

lemma Contents.runKernel {words : ℕ} {add : Bool} {sent : ℕ}
    (h : Contents pass first staging (.copying words) (waiting + 1) times history)
    (hwaiting : waiting + 1 ≤ history.length)
    (hcopied : history.length - (waiting + 1) < pass.inputs → words = pass.words) :
    Contents pass first staging (.sending add sent) (waiting + 1) times history :=
  ⟨h.coeffs, h.handle hwaiting hcopied, fun _ => (nomatch ·)⟩

lemma Contents.copied {words : ℕ}
    (h : Contents pass first staging (.copying words) (waiting + 1) times history)
    (hwaiting : waiting + 1 ≤ history.length)
    (hcopied : history.length - (waiting + 1) < pass.inputs → words = pass.words) :
    Contents pass first staging (.copying 0) waiting times history := by
  refine ⟨h.coeffs, h.handle hwaiting hcopied, fun words' hwords => ?_⟩
  obtain rfl : 0 = words' := Transfer.copying.inj hwords
  exact ⟨Nat.zero_le _, fun _ => rfl, fun x _ _ _ w hw => absurd hw (Nat.not_lt_zero w)⟩

lemma Contents.send {add add' : Bool} {sent sent' : ℕ}
    (h : Contents pass first staging (.sending add sent) waiting times history) :
    Contents pass first staging (.sending add' sent') waiting times history :=
  ⟨h.coeffs, h.words, fun _ => (nomatch ·)⟩

lemma Contents.sent {add : Bool} {sent : ℕ}
    (h : Contents pass first staging (.sending add sent) (waiting + 1) times history) :
    Contents pass first staging (.copying 0) waiting times history := by
  refine ⟨h.coeffs, h.words, fun words' hwords => ?_⟩
  obtain rfl : 0 = words' := Transfer.copying.inj hwords
  exact ⟨Nat.zero_le _, fun _ => rfl, fun x _ _ _ w hw => absurd hw (Nat.not_lt_zero w)⟩

lemma Contents.complete (h : Contents pass first staging transfer waiting times history)
    (hle : ∀ r, times r ≤ times' r) : Contents pass first staging transfer waiting times' history :=
  ⟨fun x hx hin hx' => h.coeffs x hx hin (mt (·.mono hle) hx'),
    fun x hx hin hx' => h.words x hx hin (mt (·.mono hle) hx'), h.copying⟩

end Transferring

end DriveIntegrity.Parity.Controller
