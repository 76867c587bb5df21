import DriveIntegrity.Parity.Runs

/-! That the threads come to an end: none waits for ever, and no run goes on for ever. -/

namespace DriveIntegrity.Parity.Controller

open Batches Finset

variable {R : Type} {pass : Pass R} {first : ℕ} {s s' : State R} {history : List Bool}
  {times : ℕ → ℕ} {turns : ℕ → List (ℕ × ℕ)}

section Waiting

variable [Semiring R]

lemma Invariant.transfer_step (h : Invariant pass first s history times turns) {data : TransferData}
    {rest : List TransferData} (hqueue : s.transfers = data :: rest) : ∃ s', Step pass s s' := by
  rcases hat : s.transfer with words | ⟨add, sent⟩
  · have hcopied (hdone : data.src = none ∨ words = pass.words) : ∃ s', Step pass s s' := by
      rcases eq_or_ne data.submitInBufs 0 with hzero | hsubmit
      · exact ⟨_, .copied hqueue hat hdone hzero⟩
      · exact ⟨_, .runKernel hqueue hat hdone hsubmit⟩
    rcases hsrc : data.src with - | buffer
    · exact hcopied (Or.inl hsrc)
    · rcases (h.contents.copying words hat).1.eq_or_lt with heq | hlt
      · exact hcopied (Or.inr heq)
      · exact ⟨_, .copy hqueue hsrc hat hlt⟩
  · rcases (h.queues.sending add sent hat).1.eq_or_lt with rfl | hlt
    · exact ⟨_, .sent hqueue hat⟩
    · exact ⟨_, .send hqueue hat hlt⟩

lemma Invariant.worker_step (h : Invariant pass first s history times turns) {thread : ℕ}
    (hwork : (s.workers thread).queue ≠ [] ∨ (s.workers thread).closing ≠ none) :
    ∃ s', Step pass s s' := by
  rcases hclosing : (s.workers thread).closing with - | area
  · obtain ⟨req, rest, hqueue⟩ :=
      List.exists_cons_of_ne_nil (hwork.resolve_right (not_not_intro hclosing))
    obtain ⟨k, r, rest', hturns, rfl, -⟩ := h.queues.head_req hqueue
    have hdone := h.outputs.done_le thread
    rw [hturns] at hdone
    rcases hdone.eq_or_lt with heq | hlt
    · exact ⟨_, .complete hqueue hclosing heq⟩
    · exact ⟨_, .compute hqueue hclosing hlt⟩
  · exact ⟨_, .close hclosing⟩

lemma Invariant.main_step (h : Invariant pass first s history times turns)
    (hshares : 0 < pass.shares.length) (htransfers : s.transfers = [])
    (hworkers : ∀ thread, (s.workers thread).queue = [] ∧ (s.workers thread).closing = none)
    (hmain : s.main ≠ .ended) :
    ∃ s', Step pass s s' := by
  have hbusy (b : ℕ) : s.busy b = false := by
    rw [← Bool.not_eq_true]
    intro hb
    obtain ⟨x, hx, hlt, -⟩ := h.buffers.used b hb
    rw [htransfers, List.length_nil] at hx
    omega
  have hnil (thread : ℕ) : turns thread = [] := by
    have hqueue := h.queues.queue_eq thread
    rw [(hworkers thread).1] at hqueue
    exact List.map_eq_nil_iff.mp hqueue.symm
  have hfree (area : ℕ) : (s.staging area).isActive = false := by
    rw [← Bool.not_eq_true]
    intro hactive
    rcases h.locks.used hshares area hactive with ⟨k, hk, -, hincomplete⟩ | ⟨thread, hclosing⟩
    · refine hincomplete fun r hr => ?_
      rw [h.queues.given_eq hr (hnil _), htransfers]
      rcases hat : s.transfer with words | ⟨add, sent⟩
      · exact hk
      · have hwaiting := (h.queues.sending add sent hat).2.1
        rw [htransfers] at hwaiting
        exact absurd hwaiting (Nat.not_lt_zero _)
    · exact absurd hclosing (by rw [(hworkers thread).2]; exact nofun)
  rcases hat : s.main with - | - | - | -
  · have hadded := h.progress.added_eq
    rcases Nat.lt_or_ge s.added pass.inputs with hlt | hge
    · exact ⟨_, .read hat hlt (hbusy _)⟩
    · rcases eq_or_ne s.currentStagingInputs 0 with hzero | hinputs
      · exact ⟨_, .endInput hat (by omega) hzero⟩
      · exact ⟨_, .flush hat (by omega) hinputs (hfree _)⟩
  · exact ⟨_, .add hat (hfree _)⟩
  · exact ⟨_, .finish hat fun area _ => hfree area⟩
  · exact absurd hat hmain

/-- The threads never wait for each other in a circle. -/
lemma Initial.not_stuck {outputs : ℕ} (hinitial : Initial pass s)
    (hdistributed : pass.Distributed outputs)
    (hshares : 0 < pass.shares.length) (hrun : Relation.ReflTransGen (Step pass) s s')
    (hmain : s'.main ≠ .ended) :
    ∃ s'', Step pass s' s'' := by
  obtain ⟨history, times, turns, h⟩ := hinitial.run hdistributed hrun
  rcases hqueue : s'.transfers with - | ⟨data, rest⟩
  · by_cases hwork : ∃ thread, (s'.workers thread).queue ≠ [] ∨ (s'.workers thread).closing ≠ none
    · obtain ⟨thread, hwork⟩ := hwork
      exact h.worker_step hwork
    · refine h.main_step hshares hqueue (fun thread => ?_) hmain
      rw [not_exists] at hwork
      simpa [not_or] using hwork thread
  · exact h.transfer_step hqueue

end Waiting

section Cost

variable (pass s)

/-- The steps for one share of a batch: it is sent, computed word by word, completed and its area
released. -/
def Share.cost (share : Share) : ℕ :=
  share.cells.length + 3

def Pass.itemCost : ℕ :=
  pass.words + (pass.shares.map Share.cost).sum + 2

def Worker.cost (worker : Worker) : ℕ :=
  (worker.queue.map fun req => req.cells.length + 2).sum - worker.done +
    worker.closing.toList.length

def State.transferCost : ℕ :=
  match s.transfers, s.transfer with
  | [], _ => 0
  | _ :: rest, .copying words =>
    rest.length * pass.itemCost + (pass.words - words + (pass.shares.map Share.cost).sum + 2)
  | _ :: rest, .sending _ sent =>
      rest.length * pass.itemCost + (((pass.shares.drop sent).map Share.cost).sum + 1)

def State.mainCost : ℕ :=
  match s.main with
  | .reading => (pass.inputs - s.added) * (pass.itemCost + 2) + (pass.itemCost + 2)
  | .adding => (pass.inputs - s.added) * (pass.itemCost + 2) + (pass.itemCost + 1)
  | .ending => 1
  | .ended => 0

def Pass.threads : Finset ℕ :=
  (pass.shares.map Share.thread).toFinset

/-- A bound on the steps that are left -/
def State.cost : ℕ :=
  s.mainCost pass + s.transferCost pass + ∑ thread ∈ pass.threads, (s.workers thread).cost

variable {pass s}

lemma sum_update_add {ι : Type} [DecidableEq ι] {threads : Finset ι} {i : ι} (hi : i ∈ threads)
    (f : ι → ℕ) (v : ℕ) :
    ∑ t ∈ threads, Function.update f i v t + f i = ∑ t ∈ threads, f t + v := by
  rw [sum_update_of_mem hi, sum_eq_add_sum_sdiff_singleton_of_mem hi f]
  omega

lemma sum_cost_update {thread : ℕ} (hthread : thread ∈ pass.threads) (workers : ℕ → Worker)
    (worker : Worker) :
    ∑ t ∈ pass.threads, (Function.update workers thread worker t).cost + (workers thread).cost =
      ∑ t ∈ pass.threads, (workers t).cost + worker.cost := by
  rw [← sum_update_add hthread fun t => (workers t).cost, ← comp_update Worker.cost]

lemma share_thread_mem {r : ℕ} (hr : r < pass.shares.length) :
    (pass.share r).thread ∈ pass.threads :=
  List.mem_toFinset.mpr (List.mem_map_of_mem (share_mem hr))

lemma cost_push (worker : Worker) (req : ComputeReq) :
    (worker.push req).cost ≤ worker.cost + (req.cells.length + 2) := by
  rw [Worker.cost, Worker.cost, Worker.push, List.map_append, List.sum_append, List.map_singleton,
    List.sum_singleton]
  dsimp only
  omega

lemma transferCost_copying (hat : s.transfer = .copying 0) :
    s.transferCost pass = s.transfers.length * pass.itemCost := by
  rw [State.transferCost, hat]
  split
  next hnil => rw [hnil, List.length_nil, Nat.zero_mul]
  next hcons heq =>
    obtain rfl := Transfer.copying.inj heq
    rw [hcons, List.length_cons, Nat.succ_mul, Pass.itemCost, Nat.sub_zero]
  next heq => exact nomatch heq

lemma transferCost_append {s' : State R} {data : TransferData}
    (hqueue : s'.transfers = s.transfers ++ [data])
    (hat : s'.transfer = s.transfer) (hempty : s.transfers = [] → s.transfer = .copying 0) :
    s'.transferCost pass = s.transferCost pass + pass.itemCost := by
  rcases htransfers : s.transfers with - | ⟨first, rest⟩
  · have hat0 := hempty htransfers
    rw [transferCost_copying hat0, transferCost_copying (hat.trans hat0), hqueue, htransfers,
      List.nil_append,
      List.length_singleton, List.length_nil, Nat.one_mul, Nat.zero_mul, Nat.zero_add]
  · rw [State.transferCost, State.transferCost, hqueue, hat, htransfers, List.cons_append]
    cases s.transfer <;>
    · simp only [List.length_append, List.length_singleton, Nat.succ_mul]
      omega

lemma Step.closing [Semiring R] (hstep : Step pass s s') (thread : ℕ)
    (hclosing : (s'.workers thread).closing ≠ none) :
    (s.workers thread).closing ≠ none ∨ (s.workers thread).queue ≠ [] := by
  cases hstep with
  | read | endInput | flush | finish | copy | runKernel | copied | sent => exact Or.inl hclosing
  | add =>
    rw [State.addInput] at hclosing
    split_ifs at hclosing <;> exact Or.inl hclosing
  | send =>
    simp only [State.send, (update_push ..).1] at hclosing
    exact Or.inl hclosing
  | compute =>
    simp only [State.compute, (update_advance ..).1] at hclosing
    exact Or.inl hclosing
  | @complete t req rest hqueue =>
    rcases eq_or_ne thread t with rfl | hne
    · exact Or.inr (by rw [hqueue]; exact List.cons_ne_nil _ _)
    · simp only [State.complete, Function.update_of_ne hne] at hclosing
      exact Or.inl hclosing
  | @close t area ht =>
    rcases eq_or_ne thread t with rfl | hne
    · exact Or.inl (by rw [ht]; exact Option.some_ne_none area)
    · simp only [State.close, Function.update_of_ne hne] at hclosing
      exact Or.inl hclosing

section Decrease

lemma cost_copy {data : TransferData} {rest : List TransferData} {buffer word : ℕ}
    (hqueue : s.transfers = data :: rest)
    (hat : s.transfer = .copying word) (hword : word < pass.words) :
    (s.copy data buffer word).cost pass < s.cost pass := by
  rw [State.cost, State.cost, State.transferCost, State.transferCost, hqueue, hat]
  simp only [State.copy, State.mainCost, hqueue]
  omega

lemma cost_runKernel {data : TransferData} {rest : List TransferData} {words : ℕ}
    (hqueue : s.transfers = data :: rest)
    (hat : s.transfer = .copying words) : (s.runKernel pass data).cost pass < s.cost pass := by
  rw [State.cost, State.cost, State.transferCost, State.transferCost, hqueue, hat]
  simp only [State.runKernel, State.mainCost, hqueue, List.drop_zero]
  omega

lemma cost_send {data : TransferData} {rest : List TransferData} {add : Bool} {sent : ℕ}
    (hqueue : s.transfers = data :: rest) (hat : s.transfer = .sending add sent)
    (hsent : sent < pass.shares.length) :
    (s.send data add pass.shares[sent] sent).cost pass < s.cost pass := by
  have hthread : pass.shares[sent].thread ∈ pass.threads :=
    List.mem_toFinset.mpr (List.mem_map_of_mem (List.getElem_mem hsent))
  have hsum := sum_cost_update hthread s.workers
    ((s.workers pass.shares[sent].thread).push
      ⟨data.inBufId, data.submitInBufs, add, pass.shares[sent].cells⟩)
  have hpush := cost_push (s.workers pass.shares[sent].thread)
    ⟨data.inBufId, data.submitInBufs, add, pass.shares[sent].cells⟩
  dsimp only at hpush
  rw [State.cost, State.cost, State.transferCost, State.transferCost, hqueue, hat]
  simp only [State.send, State.mainCost, hqueue]
  rw [List.drop_eq_getElem_cons hsent, List.map_cons, List.sum_cons, Share.cost]
  omega

lemma cost_notify {data : TransferData} {rest : List TransferData}
    (hqueue : s.transfers = data :: rest) :
    (s.notify data rest).cost pass < s.cost pass := by
  rw [State.cost, State.cost, transferCost_copying rfl, State.transferCost, hqueue]
  simp only [State.notify, State.mainCost]
  cases s.transfer <;> dsimp only <;> omega

lemma cost_complete {thread : ℕ} {req : ComputeReq} {rest : List ComputeReq}
    (hthread : thread ∈ pass.threads)
    (hqueue : (s.workers thread).queue = req :: rest) (hclosing : (s.workers thread).closing = none)
    (hdone : (s.workers thread).done = req.cells.length) :
    (s.complete thread req rest).cost pass < s.cost pass := by
  have hsum := sum_cost_update hthread s.workers
    ⟨rest, 0, if (s.staging req.procIdx).procRefs ≤ 1 then some req.procIdx else none⟩
  have hcost :
      Worker.cost
        ⟨rest, 0, if (s.staging req.procIdx).procRefs ≤ 1 then some req.procIdx else none⟩ <
      (s.workers thread).cost := by
    rw [Worker.cost, Worker.cost, hqueue, hclosing, hdone, List.map_cons, List.sum_cons]
    split_ifs <;> simp only [Option.toList_some, Option.toList_none, List.length_singleton,
      List.length_nil] <;> omega
  rw [State.cost, State.cost]
  simp only [State.complete, State.mainCost, State.transferCost]
  omega

lemma cost_close {thread area : ℕ} (hthread : thread ∈ pass.threads)
    (hclosing : (s.workers thread).closing = some area) :
    (s.close thread area).cost pass < s.cost pass := by
  have hsum := sum_cost_update hthread s.workers (s.workers thread).close
  have hcost : (s.workers thread).close.cost + 1 = (s.workers thread).cost := by
    rw [Worker.cost, Worker.cost, Worker.close, hclosing]
    rfl
  rw [State.cost, State.cost]
  simp only [State.close, State.mainCost, State.transferCost]
  omega

lemma Initial.cost (h : Initial pass s) :
    s.cost pass = pass.inputs * (pass.itemCost + 2) + (pass.itemCost + 2) := by
  have hworkers : ∑ thread ∈ pass.threads, (s.workers thread).cost = 0 := by
    refine sum_eq_zero fun thread _ => ?_
    rw [Worker.cost, h.queue, h.done, h.closing]
    rfl
  rw [State.cost, hworkers, transferCost_copying h.transfer, h.transfers, List.length_nil,
    Nat.zero_mul, State.mainCost, h.main, h.added]
  rfl

variable [Semiring R]

lemma Invariant.transfer_of_empty (h : Invariant pass first s history times turns)
    (hnil : s.transfers = []) :
    s.transfer = .copying 0 := by
  rcases hat : s.transfer with words | ⟨add, sent⟩
  · rw [(h.contents.copying words hat).2.1 (by rw [hnil]; rfl)]
  · have hwaiting := (h.queues.sending add sent hat).2.1
    rw [hnil] at hwaiting
    exact absurd hwaiting (Nat.not_lt_zero _)

lemma Invariant.cost_add (h : Invariant pass first s history times turns)
    (hmain : s.main = .adding) :
    (s.addInput pass).cost pass < s.cost pass := by
  have hin := h.progress.adding hmain
  have hadded := h.progress.added_length (Or.inr hmain)
  obtain ⟨n, hn⟩ : ∃ n, pass.inputs - s.added = n + 1 := ⟨pass.inputs - s.added - 1, by omega⟩
  have hn' : pass.inputs - (s.added + 1) = n := by omega
  have hnext (s' : State R) (hs' : s' = s.addInput pass) :
      s'.transferCost pass = s.transferCost pass + pass.itemCost ∧ s'.main = .reading ∧
      s'.added = s.added + 1 ∧
        s'.workers = s.workers := by
    rw [State.addInput] at hs'
    split_ifs at hs' <;> subst hs' <;> exact ⟨transferCost_append rfl rfl h.transfer_of_empty,
      rfl, rfl, rfl⟩
  obtain ⟨hcost, hmain', hadded', hworkers⟩ := hnext _ rfl
  rw [State.cost, State.cost, hcost, hworkers, State.mainCost, hmain', hadded', hn',
    State.mainCost, hmain, hn]
  simp only [Nat.succ_mul]
  omega

lemma Invariant.cost_flush (h : Invariant pass first s history times turns)
    (hmain : s.main = .reading) :
    State.cost pass { s.flush pass with main := .ending } < s.cost pass := by
  have htransfer : State.transferCost pass { s.flush pass with main := .ending } =
      s.transferCost pass + pass.itemCost := transferCost_append rfl rfl h.transfer_of_empty
  rw [State.cost, State.cost, htransfer, State.mainCost, State.mainCost, hmain]
  simp only [State.flush, State.submit]
  omega

lemma cost_compute {thread : ℕ} {req : ComputeReq} {rest : List ComputeReq} (cell : ℕ × ℕ)
    (hthread : thread ∈ pass.threads) (hqueue : (s.workers thread).queue = req :: rest)
    (hdone : (s.workers thread).done < req.cells.length) :
    (s.compute thread req cell).cost pass < s.cost pass := by
  have hsum := sum_cost_update hthread s.workers (s.workers thread).advance
  have hcost : (s.workers thread).advance.cost + 1 = (s.workers thread).cost := by
    rw [Worker.cost, Worker.cost, Worker.advance, hqueue, List.map_cons, List.sum_cons]
    dsimp only
    omega
  rw [State.cost, State.cost]
  simp only [State.compute, State.mainCost, State.transferCost]
  omega

lemma Invariant.cost_lt (h : Invariant pass first s history times turns)
    (hclosers : ∀ thread, (s.workers thread).closing ≠ none → thread ∈ pass.threads)
    (hstep : Step pass s s') :
    s'.cost pass < s.cost pass := by
  have hthread {thread : ℕ} {req : ComputeReq} {rest : List ComputeReq}
      (hqueue : (s.workers thread).queue = req :: rest) : thread ∈ pass.threads := by
    obtain ⟨k, r, rest', hturns, -, -⟩ := h.queues.head_req hqueue
    obtain ⟨hr, hthread, -⟩ := h.queues.head hturns
    exact hthread ▸ share_thread_mem hr
  cases hstep with
  | read hmain =>
    rw [State.cost, State.cost, State.mainCost, State.mainCost, hmain]
    simp only [State.transferCost]
    omega
  | add hmain => exact h.cost_add hmain
  | flush hmain => exact h.cost_flush hmain
  | endInput hmain =>
    rw [State.cost, State.cost, State.mainCost, State.mainCost, hmain]
    simp only [State.transferCost]
    omega
  | finish hmain =>
    rw [State.cost, State.cost, State.mainCost, State.mainCost, hmain]
    simp only [State.transferCost]
    omega
  | copy hqueue hsrc hat hword => exact cost_copy hqueue hat hword
  | runKernel hqueue hat => exact cost_runKernel hqueue hat
  | send hqueue hat hsent => exact cost_send hqueue hat hsent
  | copied hqueue => exact cost_notify hqueue
  | sent hqueue => exact cost_notify hqueue
  | compute hqueue hclosing hdone => exact cost_compute _ (hthread hqueue) hqueue hdone
  | complete hqueue hclosing hdone => exact cost_complete (hthread hqueue) hqueue hclosing hdone
  | @close thread area hclosing =>
    exact cost_close (hclosers thread (by rw [hclosing]; exact Option.some_ne_none area)) hclosing

lemma Invariant.closers (h : Invariant pass first s history times turns)
    (hclosers : ∀ thread, (s.workers thread).closing ≠ none → thread ∈ pass.threads)
    (hstep : Step pass s s') :
    ∀ thread, (s'.workers thread).closing ≠ none → thread ∈ pass.threads := by
  intro thread hclosing
  rcases hstep.closing thread hclosing with hclosing | hqueue
  · exact hclosers thread hclosing
  · obtain ⟨req, rest, hqueue⟩ := List.exists_cons_of_ne_nil hqueue
    obtain ⟨k, r, rest', hturns, -, -⟩ := h.queues.head_req hqueue
    obtain ⟨hr, hthread, -⟩ := h.queues.head hturns
    exact hthread ▸ share_thread_mem hr

lemma Initial.closers_run {outputs : ℕ} (hinitial : Initial pass s)
    (hdistributed : pass.Distributed outputs) (hrun : Relation.ReflTransGen (Step pass) s s') :
    ∀ thread, (s'.workers thread).closing ≠ none → thread ∈ pass.threads := by
  induction hrun with
  | refl => exact fun thread hclosing => absurd (hinitial.closing thread) hclosing
  | tail hrun hstep ih =>
    obtain ⟨history, times, turns, h⟩ := hinitial.run hdistributed hrun
    exact h.closers ih hstep

lemma Initial.cost_run {outputs : ℕ} (hinitial : Initial pass s)
    (hdistributed : pass.Distributed outputs)
    (hrun : Relation.ReflTransGen (Step pass) s s') {s'' : State R} (hstep : Step pass s' s'') :
    s''.cost pass < s'.cost pass := by
  obtain ⟨history, times, turns, h⟩ := hinitial.run hdistributed hrun
  exact h.cost_lt (hinitial.closers_run hdistributed hrun) hstep

lemma Initial.exists_ended {outputs : ℕ} (hinitial : Initial pass s)
    (hdistributed : pass.Distributed outputs)
    (hshares : 0 < pass.shares.length) (hrun : Relation.ReflTransGen (Step pass) s s') :
    ∃ s'', Relation.ReflTransGen (Step pass) s' s'' ∧ s''.main = .ended := by
  -- on the steps that are left
  induction hcost : s'.cost pass using Nat.strong_induction_on generalizing s' with
  | _ n ih =>
    by_cases hmain : s'.main = .ended
    · exact ⟨s', .refl, hmain⟩
    · obtain ⟨t, hstep⟩ := hinitial.not_stuck hdistributed hshares hrun hmain
      have hlt := hinitial.cost_run hdistributed hrun hstep
      rw [hcost] at hlt
      obtain ⟨s'', hrest, hended⟩ := ih _ hlt (hrun.tail hstep) rfl
      exact ⟨s'', .head hstep hrest, hended⟩

lemma Initial.run_length {outputs : ℕ} {run : ℕ → State R} (hinitial : Initial pass (run 0))
    (hdistributed : pass.Distributed outputs) {n : ℕ}
    (hrun : ∀ i < n, Step pass (run i) (run (i + 1))) :
    n ≤ pass.inputs * (pass.itemCost + 2) + (pass.itemCost + 2) := by
  have hkeep : ∀ i ≤ n, Relation.ReflTransGen (Step pass) (run 0) (run i) ∧
      i + (run i).cost pass ≤ (run 0).cost pass := by
    intro i hi
    induction i with
    | zero => exact ⟨.refl, by rw [Nat.zero_add]⟩
    | succ i ih =>
      obtain ⟨hreach, hcost⟩ := ih (by omega)
      have hlt := hinitial.cost_run hdistributed hreach (hrun i (by omega))
      exact ⟨hreach.tail (hrun i (by omega)), by omega⟩
  obtain ⟨-, hcost⟩ := hkeep n le_rfl
  rw [hinitial.cost] at hcost
  omega

end Decrease

end Cost

end DriveIntegrity.Parity.Controller
