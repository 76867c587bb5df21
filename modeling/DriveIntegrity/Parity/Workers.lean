import DriveIntegrity.Parity.Scheduling

/-! The requests of the workers, and what they make of the outputs. -/

namespace DriveIntegrity.Parity.Controller

open Batches Finset

variable {R : Type}

section Computing

variable {pass : Pass R} {first : ℕ} {staging staging' : ℕ → Staging R} {isActive : ℕ → Bool}
  {closing : ℕ → Option ℕ} {transfer : Transfer} {waiting : ℕ} {processingAdd : Bool}
  {queue : ℕ → List ComputeReq}
  {times : ℕ → ℕ} {turns : ℕ → List (ℕ × ℕ)} {history : List Bool}

lemma ended_handled_le : ended (handled transfer waiting history) ≤ ended history := by
  cases transfer <;> exact ended_drop_le ..

lemma given_extend (htransfer : ∀ add sent, transfer = .sending add sent → 0 < waiting)
    (last : Bool) (r : ℕ) :
    given transfer (waiting + 1) (last :: history) r = given transfer waiting history r := by
  cases transfer <;> rfl

lemma Queues.waiting_pos
    (h : Queues pass first transfer waiting processingAdd staging queue times turns history)
    (add : Bool) (sent : ℕ) (htransfer : transfer = .sending add sent) : 0 < waiting :=
  (h.sending add sent htransfer).2.1

lemma Queues.given_le
    (h : Queues pass first transfer waiting processingAdd staging queue times turns history)
    (r : ℕ) :
    given transfer waiting history r ≤ ended (handled transfer waiting history) := by
  cases transfer with
  | copying words => exact le_rfl
  | sending add sent =>
    obtain ⟨-, -, -, hended⟩ := h.sending add sent rfl
    rw [given, handled, hended]
    split_ifs <;> omega

lemma Queues.times_le_ended
    (h : Queues pass first transfer waiting processingAdd staging queue times turns history)
    {r : ℕ} (hr : r < pass.shares.length) : times r ≤ ended history :=
  (h.times_le r hr).trans ((h.given_le r).trans ended_handled_le)

lemma Queues.turn
    (h : Queues pass first transfer waiting processingAdd staging queue times turns history)
    {thread : ℕ} {turn : ℕ × ℕ} (hturn : turn ∈ turns thread) :
    times turn.2 ≤ turn.1 ∧ turn.1 < ended (handled transfer waiting history) := by
  obtain ⟨hr, hthread⟩ := h.mem_turns thread turn hturn
  have hmem := (h.turns_of turn.2 hr).mem (hthread.symm ▸ hturn)
  exact ⟨hmem.1, hmem.2.trans_le (h.given_le turn.2)⟩

lemma Queues.not_complete_ended
    (h : Queues pass first transfer waiting processingAdd staging queue times turns history)
    (hshares : 0 < pass.shares.length) : ¬ pass.Complete times (ended history) :=
  fun hcomplete => absurd (hcomplete 0 hshares) (not_lt.mpr (h.times_le_ended hshares))

lemma Queues.congr
    (h : Queues pass first transfer waiting processingAdd staging queue times turns history)
    (hrefs : ∀ a, (staging' a).procRefs = (staging a).procRefs) :
    Queues pass first transfer waiting processingAdd staging' queue times turns history :=
  { h with refs := fun k hk hk' => (hrefs _).trans (h.refs k hk hk') }

lemma Queues.extend
    (h : Queues pass first transfer waiting processingAdd staging queue times turns history)
    (last : Bool) :
    Queues pass first transfer (waiting + 1) processingAdd staging queue times turns
      (last :: history) := by
  have hhandled :
      handled transfer (waiting + 1) (last :: history) = handled transfer waiting history :=
    handled_extend h.waiting_pos last
  have hgiven (r : ℕ) :
      given transfer (waiting + 1) (last :: history) r = given transfer waiting history r :=
    given_extend h.waiting_pos last r
  refine ⟨fun add sent htransfer => ?_, by rw [hhandled, h.processingAdd_eq],
    fun r hr => ?_, h.mem_turns,
    fun r hr => ?_, fun thread => ?_, fun k hk => h.refs k (hhandled ▸ hk)⟩
  · obtain ⟨hsent, hwaiting, hadd, hended⟩ := h.sending add sent htransfer
    obtain ⟨n, rfl⟩ := Nat.exists_eq_succ_of_ne_zero hwaiting.ne'
    exact ⟨hsent, Nat.succ_pos _, hadd, hended⟩
  · rw [hgiven]
    exact h.turns_of r hr
  · rw [hgiven]
    exact h.times_le r hr
  · rw [h.queue_eq]
    refine List.map_congr_left fun turn hturn => ?_
    rw [req_extend ((h.turn hturn).2.trans_le ended_handled_le)]

lemma Queues.copy {words words' : ℕ}
    (h : Queues pass first (.copying words) waiting processingAdd staging queue times
      turns history) :
    Queues pass first (.copying words') waiting processingAdd staging queue times turns history :=
  ⟨fun _ _ => (nomatch ·), h.processingAdd_eq, h.turns_of, h.mem_turns, h.times_le,
    h.queue_eq, h.refs⟩

lemma Queues.runKernel {words : ℕ}
    (h : Queues pass first (.copying words) (waiting + 1) processingAdd staging queue times
      turns history)
    (hlocks : Locks pass first isActive closing times history)
    (hended : ended (history.drop waiting) = ended (history.drop (waiting + 1)) + 1) :
    Queues pass first (.sending processingAdd 0) (waiting + 1) true
      (Function.update staging (pass.areaOf first (ended (history.drop (waiting + 1))))
        ((staging (pass.areaOf first (ended (history.drop (waiting + 1))))).setProcRefs
          pass.shares.length))
      queue times turns history := by
  refine ⟨fun add sent htransfer => ?_, ?_, h.turns_of, h.mem_turns, h.times_le, h.queue_eq,
    fun k hk hk' => ?_⟩
  · obtain ⟨rfl, rfl⟩ := Transfer.sending.inj htransfer
    exact ⟨Nat.zero_le _, Nat.succ_pos _, h.processingAdd_eq, hended⟩
  · rw [handled, Nat.add_sub_cancel, hended, eq_comm, decide_eq_true_eq]
    exact Nat.succ_pos _
  · rw [handled, Nat.add_sub_cancel, hended] at hk
    rcases Nat.lt_succ_iff_lt_or_eq.mp hk with hlt | rfl
    · have hne : pass.areaOf first k ≠ pass.areaOf first (ended (history.drop (waiting + 1))) :=
        fun heq => by
        obtain ⟨hlast, -⟩ := hlocks.apart k _ hlt (ended_drop_le ..) heq hk'
        have hle := ended_drop_le history waiting
        omega
      rw [Function.update_of_ne hne]
      exact h.refs k hlt hk'
    · rw [Function.update_self, Staging.setProcRefs]
      refine (card_range _).symm.trans (congrArg card (filter_true_of_mem fun r hr => ?_).symm)
      exact h.times_le r (mem_range.mp hr)

lemma Queues.send {add : Bool} {sent : ℕ}
    (h : Queues pass first (.sending add sent) waiting processingAdd staging queue times
      turns history)
    (hsent : sent < pass.shares.length) :
    Queues pass first (.sending add (sent + 1)) waiting processingAdd staging
      (Function.update queue (pass.share sent).thread
        (queue (pass.share sent).thread ++
          [pass.req first history (ended (history.drop waiting), sent)]))
      times
      (Function.update turns (pass.share sent).thread
        (turns (pass.share sent).thread ++ [(ended (history.drop waiting), sent)])) history := by
  have hlate : given (.sending add sent) waiting history sent = ended (history.drop waiting) :=
    if_neg (lt_irrefl sent)
  have hnext :
      given (.sending add (sent + 1)) waiting history sent = ended (history.drop waiting) + 1 :=
    if_pos (Nat.lt_succ_self sent)
  have hother {r : ℕ} (hr : r ≠ sent) :
      given (.sending add (sent + 1)) waiting history r =
        given (.sending add sent) waiting history r :=
    if_congr (by omega) rfl rfl
  refine ⟨fun add' sent' htransfer => ?_, h.processingAdd_eq, fun r hr => ?_,
    fun thread turn hturn => ?_,
    fun r hr => ?_, fun thread => ?_, h.refs⟩
  · obtain ⟨rfl, rfl⟩ := Transfer.sending.inj htransfer
    obtain ⟨-, hrest⟩ := h.sending add sent rfl
    exact ⟨hsent, hrest⟩
  · have hturns := h.turns_of r hr
    rcases eq_or_ne r sent with rfl | hne
    · rw [hlate] at hturns
      rw [hnext, Function.update_self]
      exact hturns.push (hlate ▸ h.times_le r hr)
    · rw [hother hne]
      rcases eq_or_ne (pass.share r).thread (pass.share sent).thread with heq | hthread
      · rw [heq, Function.update_self, ← heq]
        exact hturns.push_other hne.symm
      · rw [Function.update_of_ne hthread]
        exact hturns
  · rcases eq_or_ne thread (pass.share sent).thread with rfl | hne
    · rw [Function.update_self, List.mem_append, List.mem_singleton] at hturn
      rcases hturn with hturn | rfl
      · exact h.mem_turns _ turn hturn
      · exact ⟨hsent, rfl⟩
    · rw [Function.update_of_ne hne] at hturn
      exact h.mem_turns thread turn hturn
  · rcases eq_or_ne r sent with rfl | hne
    · rw [hnext]
      exact ((h.times_le r hr).trans_eq hlate).trans (Nat.le_succ _)
    · rw [hother hne]
      exact h.times_le r hr
  · rcases eq_or_ne thread (pass.share sent).thread with rfl | hne
    · rw [Function.update_self, Function.update_self, h.queue_eq, List.map_append]
      rfl
    · rw [Function.update_of_ne hne, Function.update_of_ne hne, h.queue_eq]

lemma Queues.copied {words : ℕ}
    (h : Queues pass first (.copying words) (waiting + 1) processingAdd staging queue times
      turns history)
    (hended : ended (history.drop waiting) = ended (history.drop (waiting + 1))) :
    Queues pass first (.copying 0) waiting processingAdd staging queue times turns history := by
  have hgiven (r : ℕ) :
      given (.copying words) (waiting + 1) history r = given (.copying 0) waiting history r :=
    hended.symm
  refine ⟨fun _ _ => (nomatch ·), by rw [handled, hended]; exact h.processingAdd_eq,
    fun r hr => ?_, h.mem_turns,
    fun r hr => ?_, h.queue_eq, fun k hk => h.refs k (hended ▸ hk)⟩
  · rw [← hgiven]
    exact h.turns_of r hr
  · rw [← hgiven]
    exact h.times_le r hr

lemma Queues.sent {add : Bool}
    (h : Queues pass first (.sending add pass.shares.length) (waiting + 1) processingAdd staging
      queue times turns
      history) :
    Queues pass first (.copying 0) waiting processingAdd staging queue times turns history := by
  have hgiven {r : ℕ} (hr : r < pass.shares.length) :
      given (.sending add pass.shares.length) (waiting + 1) history r =
        given (.copying 0) waiting history r :=
    (if_pos hr).trans (h.sending add _ rfl).2.2.2.symm
  refine ⟨fun _ _ => (nomatch ·), h.processingAdd_eq, fun r hr => ?_, h.mem_turns, fun r hr => ?_,
    h.queue_eq, h.refs⟩
  · rw [← hgiven hr]
    exact h.turns_of r hr
  · rw [← hgiven hr]
    exact h.times_le r hr

lemma card_left {k r : ℕ} (hr : r < pass.shares.length) (htimes : times r = k) (j : ℕ) :
    #{i ∈ range pass.shares.length | times i ≤ j} =
      #{i ∈ range pass.shares.length | Function.update times r (k + 1) i ≤ j} + if j = k
      then 1 else 0 := by
  rcases eq_or_ne j k with rfl | hne
  · have hsplit : {i ∈ range pass.shares.length | times i ≤ j} =
        insert r {i ∈ range pass.shares.length | Function.update times r (j + 1) i ≤ j} := by
      ext i
      rw [mem_insert, mem_filter, mem_filter, mem_range]
      rcases eq_or_ne i r with rfl | hi
      · simp [hr, htimes]
      · simp [hi]
    rw [hsplit, card_insert_of_notMem (by simp), if_pos rfl]
  · rw [if_neg hne, Nat.add_zero]
    refine congrArg card (filter_congr fun i _ => ?_)
    rcases eq_or_ne i r with rfl | hi
    · rw [Function.update_self, htimes]
      omega
    · rw [Function.update_of_ne hi]

lemma complete_iff_card (times : ℕ → ℕ) (k : ℕ) :
    pass.Complete times k ↔ #{i ∈ range pass.shares.length | times i ≤ k} = 0 := by
  rw [card_eq_zero, filter_eq_empty_iff]
  exact ⟨fun h i hi => not_le.mpr (h i (mem_range.mp hi)),
    fun h i hi => not_le.mp (h (mem_range.mpr hi))⟩

lemma Queues.head
    (h : Queues pass first transfer waiting processingAdd staging queue times turns history)
    {thread k r : ℕ} {rest : List (ℕ × ℕ)} (hturns : turns thread = (k, r) :: rest) :
    r < pass.shares.length ∧ (pass.share r).thread = thread ∧ times r = k ∧
      k < ended (handled transfer waiting history) ∧ ¬ pass.Complete times k := by
  have hmem : (k, r) ∈ turns thread := hturns ▸ List.mem_cons_self
  obtain ⟨hr, hthread⟩ := h.mem_turns thread (k, r) hmem
  have hturn := h.turns_of r hr
  rw [hthread, hturns] at hturn
  obtain ⟨htimes, -, -⟩ := hturn.pop
  exact ⟨hr, hthread, htimes.symm, (h.turn hmem).2, fun hcomplete =>
    absurd (hcomplete r hr) (by omega)⟩

lemma Queues.head_req
    (h : Queues pass first transfer waiting processingAdd staging queue times turns history)
    {thread : ℕ}
    {req : ComputeReq} {rest : List ComputeReq} (hqueue : queue thread = req :: rest) :
    ∃ k r rest', turns thread = (k, r) :: rest' ∧ req = pass.req first history (k, r) ∧
      rest = rest'.map (pass.req first history) := by
  rw [h.queue_eq, List.map_eq_cons_iff] at hqueue
  obtain ⟨⟨k, r⟩, rest', hturns, hreq, hrest⟩ := hqueue
  exact ⟨k, r, rest', hturns, hreq.symm, hrest.symm⟩

lemma Queues.given_eq
    (h : Queues pass first transfer waiting processingAdd staging queue times turns history) {r : ℕ}
    (hr : r < pass.shares.length) (hturns : turns (pass.share r).thread = []) :
    times r = given transfer waiting history r := by
  have hturn := h.turns_of r hr
  rw [hturns] at hturn
  exact (h.times_le r hr).antisymm hturn.le_of_nil

lemma Contents.batch
    (h : Contents pass first staging transfer waiting times history) {k : ℕ}
    (hk : k < ended (handled transfer waiting history))
    (hincomplete : ¬ pass.Complete times k) {i : ℕ}
    (hi : i < pass.start history (k + 1) - pass.start history k) :
    (staging (pass.areaOf first k)).procCoeffs i = pass.coeffs (pass.start history k + i) ∧
      ∀ w < pass.words,
      (staging (pass.areaOf first k)).src i w = pass.data (pass.start history k + i) w := by
  have hended : k < ended history := hk.trans_le ended_handled_le
  have hhandled : Batches.start history (k + 1) ≤ (handled transfer waiting history).length := by
    cases transfer <;> exact (start_drop hk).trans_le (start_le_length _ _)
  have hstart : pass.start history k = Batches.start history k := by
    rw [Pass.start, Pass.start] at hi
    rw [Pass.start]
    omega
  rw [hstart, Pass.start] at hi
  rw [hstart]
  set x := Batches.start history k + i with hx
  have hlt : x < Batches.start history (k + 1) := by omega
  have hbatch : ended (before history x) = k := ended_before_eq hended (by omega) hlt
  have hle : x ≤ history.length := hlt.le.trans (start_le_length _ _)
  have hplace : since (before history x) = i := by
    have hsince := start_add_since_before hle
    rw [hbatch] at hsince
    omega
  have hcoeffs := h.coeffs x (hlt.trans_le (start_le_length _ _)) (by omega)
  have hwords := h.words x (hlt.trans_le hhandled) (by omega)
  rw [hbatch, hplace] at hcoeffs hwords
  exact ⟨hcoeffs hincomplete, hwords hincomplete⟩

lemma Queues.complete
    (h : Queues pass first transfer waiting processingAdd staging queue times turns history)
    (hlocks : Locks pass first isActive closing times history) {thread k r : ℕ}
    {rest : List (ℕ × ℕ)}
    (hturns : turns thread = (k, r) :: rest) :
    Queues pass first transfer waiting processingAdd
      (Function.update staging (pass.areaOf first k)
        ((staging (pass.areaOf first k)).setProcRefs
          ((staging (pass.areaOf first k)).procRefs - 1)))
      (Function.update queue thread (rest.map (pass.req first history)))
      (Function.update times r (k + 1))
      (Function.update turns thread rest) history := by
  obtain ⟨hr, hthread, htimes, hk, hincomplete⟩ := h.head hturns
  have hmono (i : ℕ) : times i ≤ Function.update times r (k + 1) i := by
    rcases eq_or_ne i r with rfl | hne
    · rw [Function.update_self]
      omega
    · rw [Function.update_of_ne hne]
  refine ⟨h.sending, h.processingAdd_eq, fun i hi => ?_, fun t turn hturn => ?_,
    fun i hi => ?_, fun t => ?_,
    fun j hj hj' => ?_⟩
  · have hturn := h.turns_of i hi
    rcases eq_or_ne i r with rfl | hne
    · rw [hthread, hturns] at hturn
      rw [hthread, Function.update_self, Function.update_self, ← htimes]
      exact hturn.pop.2.2
    · rw [Function.update_of_ne hne]
      rcases eq_or_ne (pass.share i).thread thread with heq | hne'
      · rw [heq, hturns] at hturn
        rw [heq, Function.update_self]
        exact hturn.pop_other hne.symm
      · rw [Function.update_of_ne hne']
        exact hturn
  · rcases eq_or_ne t thread with rfl | hne
    · rw [Function.update_self] at hturn
      exact h.mem_turns t turn (hturns ▸ List.mem_cons_of_mem _ hturn)
    · rw [Function.update_of_ne hne] at hturn
      exact h.mem_turns t turn hturn
  · rcases eq_or_ne i r with rfl | hne
    · have hturn := h.turns_of i hi
      rw [hthread, hturns] at hturn
      rw [Function.update_self]
      exact hturn.pop.2.1.trans_eq' (by rw [htimes])
    · rw [Function.update_of_ne hne]
      exact h.times_le i hi
  · rcases eq_or_ne t thread with rfl | hne
    · rw [Function.update_self, Function.update_self]
    · rw [Function.update_of_ne hne, Function.update_of_ne hne, h.queue_eq]
  · have hj'' : ¬ pass.Complete times j := mt (·.mono hmono) hj'
    have hcard := card_left hr htimes j
    rcases eq_or_ne j k with rfl | hne
    · rw [if_pos rfl] at hcard
      rw [Function.update_self, Staging.setProcRefs]
      dsimp only
      rw [h.refs j hj hj'', hcard, Nat.add_sub_cancel]
    · have harea : pass.areaOf first j ≠ pass.areaOf first k := fun heq => by
        have hle : ended (handled transfer waiting history) ≤ ended history := ended_handled_le
        rcases Nat.lt_or_gt_of_ne hne with hlt | hgt
        · obtain ⟨rfl, -⟩ := hlocks.apart j k hlt (by omega) heq hj''
          omega
        · obtain ⟨rfl, -⟩ := hlocks.apart k j hgt (by omega) heq.symm hincomplete
          omega
      rw [if_neg hne, Nat.add_zero] at hcard
      rw [Function.update_of_ne harea, h.refs j hj hj'', hcard]

lemma Locks.completed (h : Locks pass first isActive closing times history)
    (hqueues : Queues pass first transfer waiting processingAdd staging queue times turns history)
    {thread k r : ℕ}
    {rest : List (ℕ × ℕ)} (hturns : turns thread = (k, r) :: rest) (hnone : closing thread = none) :
    Locks pass first isActive
      (Function.update closing thread
        (if (staging (pass.areaOf first k)).procRefs ≤ 1 then some (pass.areaOf first k) else none))
      (Function.update times r (k + 1)) history := by
  obtain ⟨hr, -, htimes, hk, hincomplete⟩ := hqueues.head hturns
  have hmono (i : ℕ) : times i ≤ Function.update times r (k + 1) i := by
    rcases eq_or_ne i r with rfl | hne
    · rw [Function.update_self]
      omega
    · rw [Function.update_of_ne hne]
  have hcard := card_left hr htimes
  have hother (j : ℕ) (hj : j ≠ k) : pass.Complete (Function.update times r (k + 1)) j →
      pass.Complete times j := by
    rw [complete_iff_card, complete_iff_card, hcard, if_neg hj]
    exact id
  rw [hqueues.refs k hk hincomplete, hcard k, if_pos rfl]
  split_ifs with hlast
  · exact h.release hmono (hk.trans_le ended_handled_le) hincomplete
      ((complete_iff_card _ k).mpr (by omega)) hother hnone
  · rw [← hnone, Function.update_eq_self]
    refine h.progress hmono fun j hj => ?_
    rcases eq_or_ne j k with rfl | hne
    · rw [complete_iff_card] at hj
      omega
    · exact hother j hne hj

end Computing

section Summing

variable {pass : Pass R} {first : ℕ} {staging : ℕ → Staging R} {transfer : Transfer} {waiting : ℕ}
  {processingAdd : Bool} {queue : ℕ → List ComputeReq} {memProcessing : ℕ × ℕ → R} {done : ℕ → ℕ}
  {times : ℕ → ℕ} {turns : ℕ → List (ℕ × ℕ)} {history : List Bool}

/-- The shares have every word of the outputs once. -/
structure Pass.Distributed (pass : Pass R) (outputs : ℕ) : Prop where
  distinct : (pass.shares.flatMap Share.cells).Nodup
  word_lt : ∀ cell ∈ pass.shares.flatMap Share.cells, cell.1 < pass.words
  mem : ∀ word < pass.words, ∀ output < outputs, (word, output) ∈ pass.shares.flatMap Share.cells

lemma share_mem {r : ℕ} (hr : r < pass.shares.length) : pass.share r ∈ pass.shares := by
  rw [Pass.share, List.getD_eq_getElem?_getD, List.getElem?_eq_getElem hr, Option.getD_some]
  exact List.getElem_mem hr

lemma cell_mem {r i : ℕ} (hr : r < pass.shares.length) {cell : ℕ × ℕ}
    (hcell : (pass.share r).cells[i]? = some cell) :
    cell ∈ pass.shares.flatMap Share.cells :=
  List.mem_flatMap.mpr ⟨_, share_mem hr, List.mem_of_getElem? hcell⟩

lemma cell_unique (hdistinct : (pass.shares.flatMap Share.cells).Nodup) {r r' i i' : ℕ}
    (hr : r < pass.shares.length)
    (hr' : r' < pass.shares.length) {cell : ℕ × ℕ} (hcell : (pass.share r).cells[i]? = some cell)
    (hcell' : (pass.share r').cells[i']? = some cell) : r = r' ∧ i = i' := by
  obtain ⟨hone, hapart⟩ := List.nodup_flatMap.mp hdistinct
  rw [List.pairwise_iff_getElem] at hapart
  have hget {r : ℕ} (hr : r < pass.shares.length) : pass.share r = pass.shares[r] := by
    rw [Pass.share, List.getD_eq_getElem?_getD, List.getElem?_eq_getElem hr, Option.getD_some]
  have hmem := List.mem_of_getElem? hcell
  have hmem' := List.mem_of_getElem? hcell'
  rcases lt_trichotomy r r' with hlt | rfl | hgt
  · rw [hget hr] at hmem
    rw [hget hr'] at hmem'
    exact absurd hmem' (List.disjoint_left.mp (hapart r r' hr hr' hlt) hmem)
  · refine ⟨rfl, ?_⟩
    obtain ⟨hi, -⟩ := List.getElem?_eq_some_iff.mp hcell
    exact (List.getElem?_inj hi (hone _ (share_mem hr))).mp (hcell.trans hcell'.symm)
  · rw [hget hr] at hmem
    rw [hget hr'] at hmem'
    exact absurd hmem (List.disjoint_left.mp (hapart r' r hr' hr hgt) hmem')

lemma inWork_nil {r : ℕ} (hturns : turns (pass.share r).thread = []) :
    pass.inWork turns done r = 0 := by
  rw [Pass.inWork, hturns]

lemma inWork_cons {r k r' : ℕ} {rest : List (ℕ × ℕ)}
    (hturns : turns (pass.share r).thread = (k, r') :: rest) :
    pass.inWork turns done r = if r' = r then done (pass.share r).thread else 0 := by
  rw [Pass.inWork, hturns]

lemma Queues.applied_le
    (h : Queues pass first transfer waiting processingAdd staging queue times turns history) {r : ℕ}
    (hr : r < pass.shares.length) (i : ℕ) :
    times r + (if i < pass.inWork turns done r then 1 else 0) ≤
      ended (handled transfer waiting history) := by
  have htimes := (h.times_le r hr).trans (h.given_le r)
  rcases hturns : turns (pass.share r).thread with - | ⟨⟨k, r'⟩, rest⟩
  · rw [inWork_nil hturns]
    simpa using htimes
  · rw [inWork_cons hturns]
    rcases eq_or_ne r' r with rfl | hne
    · have hk := (h.head hturns).2.2
      split_ifs <;> omega
    · rw [if_neg hne]
      simpa using htimes

variable [Semiring R]

lemma Outputs.extend (h : Outputs pass memProcessing done times turns history)
    (hqueues : Queues pass first transfer waiting processingAdd staging queue times turns history)
    (last : Bool) :
    Outputs pass memProcessing done times turns (last :: history) := by
  refine ⟨h.done_le, fun r hr i cell hcell n hn hpos => ?_⟩
  have hle : n ≤ ended history := hn.trans_le ((hqueues.applied_le hr i).trans ended_handled_le)
  rw [start_extend hle]
  exact h.sum r hr i cell hcell n hn hpos

lemma Outputs.send (h : Outputs pass memProcessing done times turns history) (thread : ℕ)
    (turn : ℕ × ℕ) :
    Outputs pass memProcessing done times
      (Function.update turns thread (turns thread ++ [turn])) history := by
  have hwork (r : ℕ) : pass.inWork (Function.update turns thread (turns thread ++ [turn])) done r =
      pass.inWork turns done r := by
    rcases eq_or_ne (pass.share r).thread thread with rfl | hne
    · rcases hturns : turns (pass.share r).thread with - | ⟨turn', rest⟩
      · have hzero : done (pass.share r).thread = 0 := by
          have := h.done_le (pass.share r).thread
          rw [hturns] at this
          exact Nat.le_zero.mp this
        rw [inWork_nil hturns, Pass.inWork, Function.update_self]
        exact ite_eq_right_iff.mpr fun _ => hzero
      · rw [Pass.inWork, Function.update_self, Pass.inWork, hturns]
        rfl
    · rw [Pass.inWork, Function.update_of_ne hne, Pass.inWork]
  refine ⟨fun t => ?_, fun r hr i cell hcell n hn => h.sum r hr i cell hcell n (hwork r ▸ hn)⟩
  have hdone := h.done_le t
  rcases eq_or_ne t thread with rfl | hne
  · rw [Function.update_self]
    rcases hturns : turns t with - | ⟨turn', rest⟩
    · rw [hturns] at hdone
      exact (Nat.le_zero.mp hdone).trans_le (Nat.zero_le _)
    · rw [hturns] at hdone
      exact hdone
  · rw [Function.update_of_ne hne]
    exact hdone

lemma Outputs.compute (h : Outputs pass memProcessing done times turns history)
    (hdistinct : (pass.shares.flatMap Share.cells).Nodup) {thread k r : ℕ} {rest : List (ℕ × ℕ)}
    (hturns : turns thread = (k, r) :: rest) (hr : r < pass.shares.length)
    (hthread : (pass.share r).thread = thread)
    (htimes : times r = k) {cell : ℕ × ℕ}
    (hcell : (pass.share r).cells[done thread]? = some cell) {value : R}
    (hvalue : (0 < k → memProcessing cell =
        ∑ x ∈ range (pass.start history k), pass.coeffs x cell.2 * pass.data x cell.1) →
      value = ∑ x ∈ range (pass.start history (k + 1)), pass.coeffs x cell.2 * pass.data x cell.1) :
    Outputs pass (Function.update memProcessing cell value)
      (Function.update done thread (done thread + 1)) times turns
      history := by
  subst hthread
  refine ⟨fun t => ?_, fun i hi j c hc n hn hpos => ?_⟩
  · rcases eq_or_ne t (pass.share r).thread with rfl | hne
    · rw [Function.update_self, hturns]
      exact (List.getElem?_eq_some_iff.mp hcell).1
    · rw [Function.update_of_ne hne]
      exact h.done_le t
  · rcases eq_or_ne i r with rfl | hne
    · rw [inWork_cons hturns, if_pos rfl, Function.update_self] at hn
      have hold := h.sum i hi j c hc
      rw [inWork_cons hturns, if_pos rfl] at hold
      rcases eq_or_ne j (done (pass.share i).thread) with rfl | hj
      · obtain rfl : cell = c := Option.some.inj (hcell.symm.trans hc)
        rw [if_pos (Nat.lt_succ_self _)] at hn
        rw [Function.update_self, hn, htimes]
        exact hvalue fun hk => hold k (by rw [if_neg (lt_irrefl _), htimes, Nat.add_zero]) hk
      · have hne : c ≠ cell := fun heq => hj (cell_unique hdistinct hi hi (heq ▸ hc) hcell).2
        rw [Function.update_of_ne hne]
        exact hold n (hn.trans (by congr 1; exact if_congr (by omega) rfl rfl)) hpos
    · have hne' : c ≠ cell := fun heq => hne (cell_unique hdistinct hi hr (heq ▸ hc) hcell).1
      rw [Function.update_of_ne hne']
      refine h.sum i hi j c hc n (hn.trans ?_) hpos
      rcases eq_or_ne (pass.share i).thread (pass.share r).thread with heq | hthread
      · rw [inWork_cons (heq ▸ hturns), inWork_cons (heq ▸ hturns), if_neg hne.symm,
          if_neg hne.symm]
      · rw [Pass.inWork, Pass.inWork, Function.update_of_ne hthread]

lemma Outputs.complete (h : Outputs pass memProcessing done times turns history) {thread k r : ℕ}
    {rest : List (ℕ × ℕ)} (hturns : turns thread = (k, r) :: rest)
    (hthread : (pass.share r).thread = thread)
    (htimes : times r = k) (hdone : done thread = (pass.share r).cells.length) :
    Outputs pass memProcessing (Function.update done thread 0) (Function.update times r (k + 1))
      (Function.update turns thread rest) history := by
  subst hthread
  refine ⟨fun t => ?_, fun i hi j c hc n hn hpos => ?_⟩
  · rcases eq_or_ne t (pass.share r).thread with rfl | hne
    · rw [Function.update_self]
      exact Nat.zero_le _
    · rw [Function.update_of_ne hne, Function.update_of_ne hne]
      exact h.done_le t
  · have hzero (heq : (pass.share i).thread = (pass.share r).thread) :
        pass.inWork (Function.update turns (pass.share r).thread rest)
          (Function.update done (pass.share r).thread 0) i =
          0 := by
      rw [Pass.inWork, heq, Function.update_self, Function.update_self]
      cases rest with
      | nil => rfl
      | cons turn rest => exact ite_self 0
    refine h.sum i hi j c hc n (hn.trans ?_) hpos
    rcases eq_or_ne i r with rfl | hne
    · have hj : j < done (pass.share i).thread := hdone ▸ (List.getElem?_eq_some_iff.mp hc).1
      rw [hzero rfl, inWork_cons hturns, if_pos rfl, if_pos hj, Function.update_self, htimes]
      rfl
    · rw [Function.update_of_ne hne]
      rcases eq_or_ne (pass.share i).thread (pass.share r).thread with heq | hthread
      · rw [hzero heq, inWork_cons (heq ▸ hturns), if_neg hne.symm]
      · rw [Pass.inWork, Pass.inWork, Function.update_of_ne hthread, Function.update_of_ne hthread]

end Summing

end DriveIntegrity.Parity.Controller
