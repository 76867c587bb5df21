import DriveIntegrity.Parity.Workers

/-! The runs of the threads, and what they compute. -/

namespace DriveIntegrity.Parity.Controller

open Batches Finset

variable {R : Type} [Semiring R] {pass : Pass R} {first : ℕ} {s s' : State R} {history : List Bool}
  {times : ℕ → ℕ} {turns : ℕ → List (ℕ × ℕ)}

lemma Invariant.read (h : Invariant pass first s history times turns) (hmain : s.main = .reading)
    (hmore : s.added < pass.inputs) (havail : s.busy (s.added % pass.buffers) = false) :
    Invariant pass first { s with
      main := .adding
      transferbuffer :=
        Function.update s.transferbuffer (s.added % pass.buffers) (pass.data s.added) }
      history times turns := by
  have hadded := h.progress.added_length (Or.inl hmain)
  have hprogress := h.progress
  rw [hmain] at hprogress
  refine { h with progress := hprogress.read hmore, buffers := ?_ }
  rw [hadded] at havail ⊢
  exact h.buffers.read havail

lemma Invariant.endInput (h : Invariant pass first s history times turns)
    (hmain : s.main = .reading)
    (hall : s.added = pass.inputs) (hinputs : s.currentStagingInputs = 0) :
    Invariant pass first { s with main := .ending } history times turns := by
  have hprogress := h.progress
  rw [hmain] at hprogress
  exact { h with progress := hprogress.endInput hall hinputs, buffers := h.buffers.move nofun }

lemma Invariant.finish (h : Invariant pass first s history times turns) (hmain : s.main = .ending) :
    Invariant pass first { s with main := .ended } history times turns := by
  have hprogress := h.progress
  rw [hmain] at hprogress
  exact { h with progress := hprogress.finish, buffers := h.buffers.move nofun }

lemma Invariant.add (h : Invariant pass first s history times turns) (hmain : s.main = .adding)
    (hfree : (s.staging s.currentStagingArea).isActive = false) :
    Invariant pass first (s.addInput pass) (s.submits pass (s.currentStagingInputs + 1) :: history)
      times turns := by
  have hadded := h.progress.added_length (Or.inr hmain)
  have hin := h.progress.adding hmain
  have hprogress := h.progress
  have hbuffers := h.buffers
  rw [hmain] at hprogress hbuffers
  rw [h.progress.area_eq] at hfree
  set last := s.submits pass (s.currentStagingInputs + 1) with hlast
  have hentry : pass.entry first history last = {
      src := some (s.added % pass.buffers)
      inBufId := s.currentStagingArea
      index := s.currentStagingInputs
      submitInBufs := if last then s.currentStagingInputs + 1 else 0 } := by
    rw [Pass.entry, if_pos hin, hadded, h.progress.area_eq, h.progress.inputs_eq]
  have hprogress' := hprogress.add last
  rw [hentry] at hprogress'
  have hbuffers' := hbuffers.add h.progress.transfers_le hin last
  have hcontents := h.contents.add h.locks hfree h.queues.waiting_pos last
  have hqueues := h.queues.extend last
  have houtputs := h.outputs.extend h.queues last
  rw [← hadded] at hbuffers' hcontents
  rw [← h.progress.area_eq, ← h.progress.inputs_eq] at hcontents
  have hactive (a : ℕ) : (Function.update s.staging s.currentStagingArea
      ((s.staging s.currentStagingArea).setCoeffs s.currentStagingInputs (pass.coeffs s.added))
        a).isActive =
      (s.staging a).isActive := (update_setCoeffs ..).2.1
  rw [State.addInput]
  simp only [← hlast]
  cases hsubmits : last with
  | true =>
    rw [hsubmits] at hprogress' hbuffers' hcontents hqueues houtputs
    refine ⟨hprogress', ?_, ?_, ?_, ?_, houtputs⟩
    · simpa only [State.submit, if_true, List.length_append, List.length_singleton] using hbuffers'
    · have hlocks := h.locks.setIsActive hactive hfree h.queues.not_complete_ended
      rw [← h.progress.area_eq] at hlocks
      exact hlocks
    · simp only [State.submit, if_true, List.length_append, List.length_singleton]
      exact hcontents.congr (fun a => (update_setIsActive ..).1) fun a =>
        (update_setIsActive ..).2.1
    · simp only [State.submit, if_true, List.length_append, List.length_singleton]
      exact hqueues.congr fun a => (update_setIsActive ..).2.2.trans (update_setCoeffs ..).2.2
  | false =>
    rw [hsubmits] at hprogress' hbuffers' hcontents hqueues houtputs
    refine ⟨hprogress', ?_, ?_, ?_, ?_, houtputs⟩
    · simpa only [Bool.false_eq_true, if_false, List.length_append, List.length_singleton]
        using hbuffers'
    · simp only [Bool.false_eq_true, if_false, hactive]
      exact h.locks.stay hfree
    · simpa only [Bool.false_eq_true, if_false, List.length_append, List.length_singleton]
        using hcontents
    · simp only [Bool.false_eq_true, if_false, List.length_append, List.length_singleton]
      exact hqueues.congr fun a => (update_setCoeffs ..).2.2

lemma Invariant.flush (h : Invariant pass first s history times turns) (hmain : s.main = .reading)
    (hall : s.added = pass.inputs) (hinputs : s.currentStagingInputs ≠ 0)
    (hfree : (s.staging s.currentStagingArea).isActive = false) :
    Invariant pass first { s.flush pass with main := .ending } (true :: history) times turns := by
  have hadded := h.progress.added_length (Or.inl hmain)
  have hprogress := h.progress
  rw [hmain] at hprogress
  rw [h.progress.area_eq] at hfree
  have hentry : pass.entry first history true = {
      src := none
      inBufId := s.currentStagingArea
      index := 0
      submitInBufs := s.currentStagingInputs } := by
    rw [Pass.entry, if_neg (by omega), h.progress.area_eq, h.progress.inputs_eq, if_pos rfl]
  have hprogress' := hprogress.flush hall hinputs
  rw [hentry] at hprogress'
  have hlength : pass.inputs ≤ history.length := (hall.symm.trans hadded).le
  have hlocks := h.locks.setIsActive (fun _ => rfl) hfree h.queues.not_complete_ended
  rw [← h.progress.area_eq] at hlocks
  refine ⟨hprogress', ?_, hlocks, ?_, ?_, h.outputs.extend h.queues true⟩
  · simpa only [State.flush, State.submit, List.length_append, List.length_singleton] using
      h.buffers.flush h.progress.transfers_le hlength true (by decide : MainThread.ending ≠ .adding)
  · simp only [State.flush, State.submit, List.length_append, List.length_singleton]
    exact (h.contents.flush h.queues.waiting_pos hlength true).congr
      (fun a => (update_setIsActive ..).1)
      fun a => (update_setIsActive ..).2.1
  · simp only [State.flush, State.submit, List.length_append, List.length_singleton]
    exact (h.queues.extend true).congr fun a => (update_setIsActive ..).2.2

lemma Invariant.copy (h : Invariant pass first s history times turns) {data : TransferData}
    {rest : List TransferData}
    {buffer word : ℕ} (hqueue : s.transfers = data :: rest) (hsrc : data.src = some buffer)
    (hat : s.transfer = .copying word) (hword : word < pass.words) :
    Invariant pass first (s.copy data buffer word) history times turns := by
  have hprogress := h.progress
  rw [hqueue] at hprogress
  obtain ⟨x, last, hx, -, rfl, -⟩ := hprogress.head
  have hlt : x < history.length := by omega
  have hin : x < pass.inputs := by
    by_contra hnot
    rw [entry_src, length_before hlt.le, if_neg hnot] at hsrc
    exact nomatch hsrc
  rw [entry_src, length_before hlt.le, if_pos hin] at hsrc
  rw [Pass.entry, length_before hlt.le, if_pos hin]
  obtain rfl : x % pass.buffers = buffer := Option.some.inj hsrc
  have hcontents := h.contents
  have hqueues := h.queues
  rw [hat] at hcontents hqueues
  have hwaiting : s.transfers.length = rest.length + 1 := by rw [hqueue, List.length_cons]
  have hvalue := (h.buffers.held x (by omega) hlt hin).2
  refine { h with locks := ?_, contents := ?_, queues := ?_ }
  · simp only [State.copy, (update_setWord ..).2.1]
    exact h.locks
  · simp only [State.copy, hvalue]
    exact hcontents.copy h.locks (by omega) hlt hword
  · exact hqueues.copy.congr fun a => (update_setWord ..).2.2

lemma Invariant.runKernel (h : Invariant pass first s history times turns) {data : TransferData}
    {rest : List TransferData} {words : ℕ} (hqueue : s.transfers = data :: rest)
    (hat : s.transfer = .copying words)
    (hcopied : data.src = none ∨ words = pass.words) (hsubmit : data.submitInBufs ≠ 0) :
    Invariant pass first (s.runKernel pass data) history times turns := by
  have hprogress := h.progress
  rw [hqueue] at hprogress
  obtain ⟨x, last, hx, hnext, rfl, -⟩ := hprogress.head
  have hlt : x < history.length := by omega
  have hx' : x = history.length - (rest.length + 1) := by omega
  have hbatch : (pass.entry first (before history x) last).inBufId =
      pass.areaOf first (ended (history.drop (rest.length + 1))) := by
    rw [← before_eq_drop hx, entry_inBufId]
  have hcopied' : history.length - (rest.length + 1) < pass.inputs →
      words = pass.words := fun hin => by
    rw [← hx'] at hin
    rw [entry_src, length_before hlt.le, if_pos hin] at hcopied
    exact hcopied.resolve_left nofun
  have hlast : last = true := by
    cases last
    · exact absurd entry_submitInBufs_false hsubmit
    · rfl
  have hended : ended (history.drop rest.length) = ended (history.drop (rest.length + 1)) + 1 := by
    rw [← before_eq_drop hx,
      ← before_eq_drop (show x + 1 + rest.length = history.length by omega), hnext, hlast]
    rfl
  have hcontents := h.contents
  have hqueues := h.queues
  have hwaiting : s.transfers.length = rest.length + 1 := by rw [hqueue, List.length_cons]
  rw [hat, hwaiting] at hcontents hqueues
  refine { h with locks := ?_, contents := ?_, queues := ?_ }
  · simp only [State.runKernel, (update_setProcRefs ..).2.2]
    exact h.locks
  · simp only [State.runKernel, hwaiting]
    exact (hcontents.runKernel (by omega) hcopied').congr (fun a => (update_setProcRefs ..).1)
      fun a => (update_setProcRefs ..).2.1
  · simp only [State.runKernel, hwaiting, hbatch]
    exact hqueues.runKernel h.locks hended

lemma Invariant.send (h : Invariant pass first s history times turns) {data : TransferData}
    {rest : List TransferData}
    {add : Bool} {sent : ℕ} (hqueue : s.transfers = data :: rest)
    (hat : s.transfer = .sending add sent)
    (hsent : sent < pass.shares.length) :
    ∃ turns',
    Invariant pass first (s.send data add pass.shares[sent] sent) history times turns' := by
  have hprogress := h.progress
  rw [hqueue] at hprogress
  obtain ⟨x, last, hx, hnext, rfl, -⟩ := hprogress.head
  have hlt : x < history.length := by omega
  have hcontents := h.contents
  have hqueues := h.queues
  have hwaiting : s.transfers.length = rest.length + 1 := by rw [hqueue, List.length_cons]
  rw [hat, hwaiting] at hcontents hqueues
  obtain ⟨-, -, hadd, hended⟩ := hqueues.sending add sent rfl
  rw [Nat.add_sub_cancel] at hended
  rw [← before_eq_drop hx, ← before_eq_drop (show x + 1 + rest.length = history.length by omega)]
    at hended
  rw [← before_eq_drop hx] at hadd
  have hlast : last = true := by
    cases last
    · rw [hnext, ended_false] at hended
      omega
    · rfl
  have hshare : pass.shares[sent] = pass.share sent := by
    rw [Pass.share, List.getD_eq_getElem?_getD, List.getElem?_eq_getElem hsent, Option.getD_some]
  subst hlast
  -- the request is for the batch that the item ends
  have hle : ended (before history x) + 1 ≤ ended (before history (x + 1)) := hended.ge
  have hend : Batches.start history (ended (before history x) + 1) = x + 1 := by
    rw [← start_before hle, hnext, start_true, length_before hlt.le]
  have hin : x ≤ pass.inputs := by
    by_contra hnot
    have := (hprogress.flushed x hlt (by omega)).1
    omega
  set turn := (ended (history.drop (rest.length + 1)), sent) with hturn
  have hreq : (⟨(pass.entry first (before history x) true).inBufId,
      (pass.entry first (before history x) true).submitInBufs, add, (pass.share sent).cells⟩ :
      ComputeReq) =
      pass.req first history turn := by
    rw [hturn, ← before_eq_drop hx, Pass.req, entry_inBufId,
      entry_submitInBufs_true ((length_before hlt.le).trans_le hin), length_before hlt.le, hadd,
      Pass.start, Pass.start, Pass.start, start_before le_rfl, hend]
  refine ⟨Function.update turns (pass.share sent).thread (turns (pass.share sent).thread ++ [turn]),
    { h with locks := ?_, contents := ?_, queues := ?_, outputs := ?_ }⟩
  · simp only [State.send, (update_push ..).1]
    exact h.locks
  · simp only [State.send, hwaiting]
    exact hcontents.send
  · simp only [State.send, hshare, hreq, comp_update Worker.queue, hwaiting]
    exact hqueues.send hsent
  · simp only [State.send, (update_push ..).2]
    exact h.outputs.send _ _

lemma Invariant.notify (h : Invariant pass first s history times turns) {data : TransferData}
    {rest : List TransferData} (hqueue : s.transfers = data :: rest)
    (hat : (∃ words, s.transfer = .copying words ∧ (data.src = none ∨ words = pass.words) ∧
      data.submitInBufs = 0) ∨
      ∃ add, s.transfer = .sending add pass.shares.length) :
    Invariant pass first (s.notify data rest) history times turns := by
  have hprogress := h.progress
  rw [hqueue] at hprogress
  obtain ⟨x, last, hx, hnext, rfl, -⟩ := hprogress.head
  have hlt : x < history.length := by omega
  have hx' : x = history.length - (rest.length + 1) := by omega
  have hcontents := h.contents
  have hqueues := h.queues
  have hbuffers := h.buffers
  have hwaiting : s.transfers.length = rest.length + 1 := by rw [hqueue, List.length_cons]
  rw [hwaiting] at hcontents hqueues hbuffers
  have hbusy : Buffers pass s.main (s.notify (pass.entry first (before history x) last) rest).busy
      s.transferbuffer
      rest.length history := by
    simp only [State.notify, entry_src, length_before hlt.le]
    rcases Nat.lt_or_ge x pass.inputs with hin | hin
    · simp only [if_pos hin]
      rw [hx'] at hin ⊢
      exact hbuffers.notify (by omega) hin
    · simp only [if_neg (not_lt.mpr hin)]
      exact hbuffers.notify_flush (by omega)
  refine { h with progress := hprogress.notify, buffers := hbusy, contents := ?_, queues := ?_ }
  · rcases hat with ⟨words, hat, hcopied, -⟩ | ⟨add, hat⟩
    · rw [hat] at hcontents
      refine hcontents.copied (by omega) fun hin => ?_
      rw [← hx'] at hin
      rw [entry_src, length_before hlt.le, if_pos hin] at hcopied
      exact hcopied.resolve_left (Option.some_ne_none _)
    · rw [hat] at hcontents
      exact hcontents.sent
  · rcases hat with ⟨words, hat, -, hsubmit⟩ | ⟨add, hat⟩
    · rw [hat] at hqueues
      refine hqueues.copied ?_
      rw [← before_eq_drop hx,
        ← before_eq_drop (show x + 1 + rest.length = history.length by omega), hnext]
      cases last with
      | false => rfl
      | true =>
        -- an item that ends a batch is submitted
        have hin : x ≤ pass.inputs := by
          by_contra hnot
          have := (hprogress.flushed x hlt (by omega)).1
          omega
        have hstart := start_add_since_before hlt.le
        rw [entry_submitInBufs_true ((length_before hlt.le).trans_le hin),
          length_before hlt.le, Pass.start, start_before le_rfl] at hsubmit
        rcases hin.eq_or_lt with heq | hlt'
        · have := (hprogress.flushed x hlt heq.ge).2
          omega
        · omega
    · rw [hat] at hqueues
      exact hqueues.sent

lemma Invariant.compute (h : Invariant pass first s history times turns)
    (hdistinct : (pass.shares.flatMap Share.cells).Nodup)
    (hwords : ∀ cell ∈ pass.shares.flatMap Share.cells, cell.1 < pass.words) {thread : ℕ}
    {req : ComputeReq}
    {rest : List ComputeReq} (hqueue : (s.workers thread).queue = req :: rest)
    (hdone : (s.workers thread).done < req.cells.length) :
    Invariant pass first (s.compute thread req req.cells[(s.workers thread).done]) history
      times turns := by
  obtain ⟨k, r, rest', hturns, rfl, -⟩ := h.queues.head_req hqueue
  obtain ⟨hr, hthread, htimes, hk, hincomplete⟩ := h.queues.head hturns
  have hcell : (pass.share r).cells[(s.workers thread).done]? =
      some (pass.req first history (k, r)).cells[(s.workers thread).done] :=
    List.getElem?_eq_getElem hdone
  set cell := (pass.req first history (k, r)).cells[(s.workers thread).done] with hcelldef
  have hsum : ∑ i ∈ range (pass.req first history (k, r)).numInputs,
      (s.staging (pass.req first history (k, r)).procIdx).procCoeffs i cell.2 *
        (s.staging (pass.req first history (k, r)).procIdx).src i cell.1 =
      ∑ i ∈ range (pass.start history (k + 1) - pass.start history k),
        pass.coeffs (pass.start history k + i) cell.2 * pass.data
          (pass.start history k + i) cell.1 := by
    refine sum_congr rfl fun i hi => ?_
    obtain ⟨hcoeffs, hsrc⟩ := h.contents.batch hk hincomplete (mem_range.mp hi)
    exact congrArg₂ (· * ·) (congrFun hcoeffs cell.2)
      (hsrc cell.1 (hwords cell (cell_mem hr hcell)))
  have hmono : pass.start history k ≤ pass.start history (k + 1) :=
    min_le_min_right _ (start_mono (Nat.le_succ k) (hk.trans_le ended_handled_le))
  refine { h with locks := ?_, queues := ?_, outputs := ?_ }
  · simp only [State.compute, (update_advance ..).1]
    exact h.locks
  · simp only [State.compute, (update_advance ..).2]
    exact h.queues
  · simp only [State.compute, comp_update Worker.done]
    refine h.outputs.compute hdistinct hturns hr hthread htimes hcell fun hbefore => ?_
    have hsplit := sum_range_add (fun x => pass.coeffs x cell.2 * pass.data x cell.1)
      (pass.start history k)
      (pass.start history (k + 1) - pass.start history k)
    rw [Nat.add_sub_cancel' hmono] at hsplit
    rw [State.computed, hsum, hsplit]
    congr 1
    rcases Nat.eq_zero_or_pos k with rfl | hpos
    · rw [if_neg (by rw [Pass.req]; simp), Pass.start, start_zero, Nat.zero_min,
        range_zero, sum_empty]
    · rw [if_pos (by rw [Pass.req]; simpa using hpos), hbefore hpos]

lemma Invariant.complete (h : Invariant pass first s history times turns) {thread : ℕ}
    {req : ComputeReq} {rest : List ComputeReq} (hqueue : (s.workers thread).queue = req :: rest)
    (hclosing : (s.workers thread).closing = none)
    (hdone : (s.workers thread).done = req.cells.length) :
    ∃ times' turns', Invariant pass first (s.complete thread req rest) history times' turns' := by
  obtain ⟨k, r, rest', hturns, rfl, rfl⟩ := h.queues.head_req hqueue
  obtain ⟨hr, hthread, htimes, hk, hincomplete⟩ := h.queues.head hturns
  have hmono (i : ℕ) : times i ≤ Function.update times r (k + 1) i := by
    rcases eq_or_ne i r with rfl | hne
    · rw [Function.update_self]
      omega
    · rw [Function.update_of_ne hne]
  refine ⟨Function.update times r (k + 1), Function.update turns thread rest',
    { h with locks := ?_, contents := ?_, queues := ?_, outputs := ?_ }⟩
  · simp only [State.complete, comp_update Worker.closing, (update_setProcRefs ..).2.2]
    exact h.locks.completed h.queues hturns hclosing
  · simp only [State.complete]
    exact (h.contents.complete hmono).congr (fun a => (update_setProcRefs ..).1) fun a =>
      (update_setProcRefs ..).2.1
  · simp only [State.complete, comp_update Worker.queue]
    exact h.queues.complete h.locks hturns
  · simp only [State.complete, comp_update Worker.done]
    exact h.outputs.complete hturns hthread htimes hdone

lemma Invariant.close (h : Invariant pass first s history times turns) {thread area : ℕ}
    (hclosing : (s.workers thread).closing = some area) :
    Invariant pass first (s.close thread area) history times turns := by
  refine { h with locks := ?_, contents := ?_, queues := ?_, outputs := ?_ }
  · simp only [State.close, comp_update Worker.closing, comp_update Staging.isActive]
    exact h.locks.close hclosing
  · simp only [State.close]
    exact h.contents.congr (fun a => (update_setIsActive ..).1) fun a => (update_setIsActive ..).2.1
  · simp only [State.close, (update_close ..).1]
    exact h.queues.congr fun a => (update_setIsActive ..).2.2
  · simp only [State.close, (update_close ..).2]
    exact h.outputs

lemma Invariant.step {outputs : ℕ} (h : Invariant pass first s history times turns)
    (hdistributed : pass.Distributed outputs) (hstep : Step pass s s') :
    ∃ history' times' turns', Invariant pass first s' history' times' turns' := by
  cases hstep with
  | read hmain hmore havail => exact ⟨_, _, _, h.read hmain hmore havail⟩
  | add hmain hfree => exact ⟨_, _, _, h.add hmain hfree⟩
  | flush hmain hall hinputs hfree => exact ⟨_, _, _, h.flush hmain hall hinputs hfree⟩
  | endInput hmain hall hinputs => exact ⟨_, _, _, h.endInput hmain hall hinputs⟩
  | finish hmain hfree => exact ⟨_, _, _, h.finish hmain⟩
  | copy hqueue hsrc hat hword => exact ⟨_, _, _, h.copy hqueue hsrc hat hword⟩
  | runKernel hqueue hat hcopied hsubmit => exact ⟨_, _, _, h.runKernel hqueue hat hcopied hsubmit⟩
  | send hqueue hat hsent => exact ⟨_, _, h.send hqueue hat hsent⟩
  | copied hqueue hat hcopied hsubmit =>
      exact ⟨_, _, _, h.notify hqueue (Or.inl ⟨_, hat, hcopied, hsubmit⟩)⟩
  | sent hqueue hat => exact ⟨_, _, _, h.notify hqueue (Or.inr ⟨_, hat⟩)⟩
  | compute hqueue hclosing hdone =>
    exact ⟨_, _, _, h.compute hdistributed.distinct hdistributed.word_lt hqueue hdone⟩
  | complete hqueue hclosing hdone => exact ⟨_, h.complete hqueue hclosing hdone⟩
  | close hclosing => exact ⟨_, _, _, h.close hclosing⟩

lemma Initial.invariant (h : Initial pass s) :
    Invariant pass s.currentStagingArea s [] (fun _ => 0) fun _ => [] where
  progress := {
    added_eq := h.added
    reading := fun _ => Nat.zero_le _
    adding := fun hmain => by rw [h.main] at hmain; exact nomatch hmain
    ending := fun hmain => by rw [h.main] at hmain; simp at hmain
    area_eq := (Nat.mod_eq_of_lt h.currentStagingArea).symm
    inputs_eq := h.currentStagingInputs
    transfers_eq := by rw [h.transfers]; rfl
    transfers_le := by rw [h.transfers]; exact le_rfl
    flushed := nofun }
  buffers := {
    held := nofun
    apart := nofun
    adding := fun hmain => by rw [h.main] at hmain; exact nomatch hmain
    used := fun b hb => by rw [h.busy] at hb; exact nomatch hb }
  locks := {
    locked := nofun
    complete := fun thread area hclosing => by rw [h.closing] at hclosing; exact nomatch hclosing
    once := fun thread _ area hclosing => by rw [h.closing] at hclosing; exact nomatch hclosing
    used := fun _ area hactive => by rw [h.isActive] at hactive; exact nomatch hactive
    apart := fun j k hjk hk => absurd hjk (by rw [Nat.le_zero.mp hk]; exact Nat.not_lt_zero j) }
  contents := {
    coeffs := nofun
    words := fun x hx => by rw [h.transfer, h.transfers] at hx; exact nomatch hx
    copying := fun words hwords => by
      rw [h.transfer] at hwords
      obtain rfl := Transfer.copying.inj hwords
      exact ⟨Nat.zero_le _, fun _ => rfl, nofun⟩ }
  queues := {
    sending := fun add sent hat => by rw [h.transfer] at hat; exact nomatch hat
    processingAdd_eq := by rw [h.processingAdd, h.transfer, h.transfers]; rfl
    turns_of := fun r hr => by rw [h.transfer, h.transfers]; rfl
    mem_turns := nofun
    times_le := fun r hr => Nat.zero_le _
    queue_eq := h.queue
    refs := fun k hk => by rw [h.transfer, h.transfers] at hk; exact absurd hk (Nat.not_lt_zero k) }
  outputs := {
    done_le := fun thread => (h.done thread).le
    sum := fun r hr i cell hcell n hn hpos => absurd hpos (by rw [hn]; exact lt_irrefl 0) }

lemma Initial.run {outputs : ℕ} (h : Initial pass s) (hdistributed : pass.Distributed outputs)
    (hrun : Relation.ReflTransGen (Step pass) s s') :
    ∃ history times turns, Invariant pass s.currentStagingArea s' history times turns := by
  induction hrun with
  | refl => exact ⟨_, _, _, h.invariant⟩
  | tail _ hstep ih =>
    obtain ⟨history, times, turns, hinvariant⟩ := ih
    exact hinvariant.step hdistributed hstep

lemma Step.ended (hstep : Step pass s s')
    (h : s.main = .ended → ∀ area < pass.areas, (s.staging area).isActive = false)
    (hmain' : s'.main = .ended) :
    ∀ area < pass.areas, (s'.staging area).isActive = false := by
  cases hstep with
  | read | endInput | flush => exact nomatch hmain'
  | add hmain hfree =>
    rw [State.addInput] at hmain'
    split_ifs at hmain'
    exact nomatch hmain'
  | finish hmain hfree => exact hfree
  | copy =>
    simp only [State.copy, (update_setWord ..).2.1]
    exact h hmain'
  | runKernel =>
    simp only [State.runKernel, (update_setProcRefs ..).2.2]
    exact h hmain'
  | complete =>
    simp only [State.complete, (update_setProcRefs ..).2.2]
    exact h hmain'
  | send | copied | sent | compute => exact h hmain'
  | close hclosing =>
    intro area harea
    simp only [State.close, Function.update_apply]
    split_ifs
    · rfl
    · exact h hmain' area harea

lemma Invariant.getOutput {outputs : ℕ} (h : Invariant pass first s history times turns)
    (hdistributed : pass.Distributed outputs) (hmain : s.main = .ended)
    (hfree : ∀ area < pass.areas, (s.staging area).isActive = false) {word output : ℕ}
    (hword : word < pass.words)
    (houtput : output < outputs) :
    s.getOutput output word = ∑ x ∈ range pass.inputs, pass.coeffs x output * pass.data x word := by
  obtain ⟨hall, hsince⟩ := h.progress.ending (Or.inr hmain)
  obtain ⟨share, hshare, hcell⟩ := List.mem_flatMap.mp (hdistributed.mem word hword output houtput)
  obtain ⟨r, hr, rfl⟩ := List.getElem_of_mem hshare
  obtain ⟨i, hi⟩ := List.getElem?_of_mem hcell
  have hget : pass.share r = pass.shares[r] := by
    rw [Pass.share, List.getD_eq_getElem?_getD, List.getElem?_eq_getElem hr, Option.getD_some]
  rw [← hget] at hi
  have hcomplete (k : ℕ) (hk : k < ended history) : pass.Complete times k := by
    by_contra hincomplete
    have hactive := h.locks.locked k hk hincomplete
    rw [Pass.areaOf, hfree _ (Nat.mod_lt _ pass.areas_pos)] at hactive
    exact Bool.noConfusion hactive
  have hnil (thread : ℕ) : turns thread = [] := by
    rcases hturns : turns thread with - | ⟨⟨k, r'⟩, rest⟩
    · rfl
    · obtain ⟨-, -, -, hk, hincomplete⟩ := h.queues.head hturns
      exact absurd (hcomplete k (hk.trans_le ended_handled_le)) hincomplete
  have htimes : times r = ended history := by
    refine le_antisymm (h.queues.times_le_ended hr) ?_
    rcases Nat.eq_zero_or_pos (ended history) with hzero | hpos
    · omega
    · have := hcomplete (ended history - 1) (by omega) r hr
      omega
  have hhandled : ended (handled s.transfer s.transfers.length history) = ended history := by
    refine le_antisymm ended_handled_le ?_
    rw [← htimes, h.queues.given_eq hr (hnil _)]
    exact h.queues.given_le r
  have hstart : pass.start history (ended history) = pass.inputs := by
    have := start_ended_add_since history
    rw [Pass.start]
    omega
  rw [State.getOutput, h.queues.processingAdd_eq, hhandled]
  rcases Nat.eq_zero_or_pos (ended history) with hzero | hpos
  · rw [hzero] at hstart
    have hinputs : pass.inputs = 0 := by
      rw [← hstart, Pass.start, start_zero, Nat.zero_min]
    rw [hzero, hinputs, range_zero, sum_empty]
    exact if_neg (by simp)
  · rw [if_pos (by simpa using hpos),
      h.outputs.sum r hr i (word, output) hi (ended history) ?_ hpos, hstart]
    rw [inWork_nil (hnil _), if_neg (Nat.not_lt_zero i), htimes, Nat.add_zero]

lemma Initial.sum_of_ended {outputs : ℕ} (hinitial : Initial pass s)
    (hdistributed : pass.Distributed outputs)
    (hrun : Relation.ReflTransGen (Step pass) s s') (hmain : s'.main = .ended) :
    ∀ output < outputs, ∀ word < pass.words,
      s'.getOutput output word = ∑ x ∈ range pass.inputs,
      pass.coeffs x output * pass.data x word := by
  intro output houtput word hword
  obtain ⟨history, times, turns, h⟩ := hinitial.run hdistributed hrun
  refine h.getOutput hdistributed hmain ?_ hword houtput
  have hfree : s'.main = .ended → ∀ area < pass.areas, (s'.staging area).isActive = false := by
    clear h hmain
    induction hrun with
    | refl => exact fun _ area _ => hinitial.isActive area
    | tail _ hstep ih => exact hstep.ended ih
  exact hfree hmain

end DriveIntegrity.Parity.Controller
