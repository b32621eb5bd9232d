import CmtTcp.Basic
import CmtTcp.Lib.Run
import Mathlib.Data.List.FinRange

/-!
# The logger

The buffers of `cmtlogger.c` go from the free queue to a worker, who enqueues them as jobs, and from the
job queue to the logger thread, which writes them and gives them back. Each queue operation is one step;
between two of them the threads are interleaved in any way.

* `LogSys.Conserved`: every buffer is in one place, the counters are right, and the jobs are written in
  order;
* `logStep_conserved`: what a step does to it;
* `log_conserved`: along runs in which no drain gets to its 101st buffer it holds in every state.

`buff_link` and the two heads of the context are declared as pointers and used as a node and as heads inside
their records (`&ctx->free_queue`, the cast of a buffer to its node); the model reads them so.
-/

namespace CmtTcp

open Lib (Run Guarded)

/-! ### The queues -/

/-- `NUM_LOG_BUFF` -/
def numLogBuff : ℕ := 100

/-- One of the buffers that `init_log_thread_context` allocates. -/
abbrev LogBuff := Fin numLogBuff

/-- `log_thread_state` -/
inductive LogThreadState
  | idle
  | active
  deriving DecidableEq

/-- `log_thread_context`, with the queues as lists -/
structure LogContext where
  freeQueue : List LogBuff
  workingQueue : List LogBuff
  freeBuffCnt : ℤ
  jobBuffCnt : ℤ
  state : LogThreadState
  done : Bool
  deriving DecidableEq

/-- `enqueue_free_buffer`; no context when an assertion fails. -/
def enqueueFreeBuffer (ctx : LogContext) (workingBp : LogBuff) : Option LogContext :=
  let ctx : LogContext := { ctx with
    freeQueue := ctx.freeQueue ++ [workingBp]
    freeBuffCnt := ctx.freeBuffCnt + 1 }
  if ctx.freeBuffCnt ≤ (numLogBuff : ℤ) ∧ ctx.freeBuffCnt + ctx.jobBuffCnt ≤ (numLogBuff : ℤ) then some ctx
  else none

/-- `dequeue_free_buffer` -/
def dequeueFreeBuffer (ctx : LogContext) : Option (LogContext × Option LogBuff) :=
  let (ctx, freeBp) :=
    match ctx.freeQueue with
    | [] => (ctx, none)
    | freeBp :: rest =>
      ({ ctx with freeQueue := rest, freeBuffCnt := ctx.freeBuffCnt - 1 }, some freeBp)
  if ctx.freeBuffCnt ≥ 0 ∧ ctx.freeBuffCnt + ctx.jobBuffCnt ≤ (numLogBuff : ℤ) then some (ctx, freeBp)
  else none

/-- `enqueue_job_buffer` -/
def enqueueJobBuffer (ctx : LogContext) (workingBp : LogBuff) : Option LogContext :=
  let ctx : LogContext := { ctx with
    workingQueue := ctx.workingQueue ++ [workingBp]
    jobBuffCnt := ctx.jobBuffCnt + 1
    state := .active }
  if ctx.jobBuffCnt ≤ (numLogBuff : ℤ) ∧ ctx.freeBuffCnt + ctx.jobBuffCnt ≤ (numLogBuff : ℤ) then some ctx
  else none

/-- `dequeue_job_bufffer` -/
def dequeueJobBuffer (ctx : LogContext) : Option (LogContext × Option LogBuff) :=
  let (ctx, workingBp) :=
    match ctx.workingQueue with
    | [] => ({ ctx with state := .idle }, none)
    | workingBp :: rest =>
      ({ ctx with workingQueue := rest, jobBuffCnt := ctx.jobBuffCnt - 1 }, some workingBp)
  if ctx.jobBuffCnt ≥ 0 ∧ ctx.freeBuffCnt + ctx.jobBuffCnt ≤ (numLogBuff : ℤ) then some (ctx, workingBp)
  else none

/-- `init_log_thread_context` -/
def initLogThreadContext : Option LogContext :=
  (List.finRange numLogBuff).foldlM enqueueFreeBuffer
    { freeQueue := [], workingQueue := [], freeBuffCnt := 0, jobBuffCnt := 0, state := .idle,
      done := false }

/-! ### The threads -/

/-- Where the logger thread is in `thread_log_main`; `final` tells its two drain loops apart. -/
inductive LoggerPc
  /-- `while (!ctx->done)` -/
  | test
  /-- `dequeue_job_bufffer` is next -/
  | drain (final : Bool) (cnt : ℕ)
  /-- `++cnt > NUM_LOG_BUFF` is next -/
  | check (final : Bool) (cnt : ℕ) (wBuff : LogBuff)
  /-- `fwrite` is next -/
  | write (final : Bool) (cnt : ℕ) (wBuff : LogBuff)
  /-- `enqueue_free_buffer` is next -/
  | release (final : Bool) (cnt : ℕ) (wBuff : LogBuff)
  /-- `while (ctx->state == IDLE_LOGT && !ctx->done)` -/
  | wait
  | finished
  /-- the assertion on the length written has failed -/
  | shortWrite (wBuff : LogBuff)

/-- The queues, the worker with the buffer in its hand, the logger thread, and the history of the run: the
buffers enqueued as jobs, and those written. `aborted` says that an assertion on the counters failed. -/
structure LogSys where
  ctx : LogContext
  worker : Option LogBuff
  logger : LoggerPc
  enqueued : List LogBuff
  written : List LogBuff
  aborted : Bool

/-- What happens next: the worker takes a buffer or enqueues it, somebody sets `done`, or the logger thread
goes on. `full` is whether `fwrite` writes everything, `woken` whether `read` returns other than `0`. -/
inductive LogLabel
  | take
  | put
  | stop
  | logger (full woken : Bool)

/-- Behind a drain loop. -/
def afterDrain (final : Bool) : LoggerPc := if final then .finished else .wait

/-- A step of the logger thread. -/
def loggerStep (s : LogSys) (full woken : Bool) : Option LogSys :=
  match s.logger with
  -- with `done` set, the drain that follows is the last one
  | .test => some { s with logger := .drain s.ctx.done 0 }
  | .drain final cnt =>
    match dequeueJobBuffer s.ctx with
    | none => some { s with aborted := true }
    | some (ctx, none) => some { s with ctx := ctx, logger := afterDrain final }
    | some (ctx, some wBuff) => some { s with ctx := ctx, logger := .check final cnt wBuff }
  | .check final cnt wBuff =>
    -- `break`, with the buffer off the job queue and in nobody's hand
    if cnt + 1 > numLogBuff then some { s with logger := afterDrain final }
    else some { s with logger := .write final (cnt + 1) wBuff }
  | .write final cnt wBuff =>
    let s := { s with written := s.written ++ [wBuff] }
    -- the first loop only reports that not everything was written
    if final ∧ ¬full then some { s with logger := .shortWrite wBuff }
    else some { s with logger := .release final cnt wBuff }
  | .release final cnt wBuff =>
    match enqueueFreeBuffer s.ctx wBuff with
    | none => some { s with aborted := true }
    | some ctx => some { s with ctx := ctx, logger := .drain final cnt }
  | .wait =>
    if s.ctx.state = .idle ∧ ¬s.ctx.done then
      -- `read` returned `0`: the loop asks again
      some (if woken then { s with logger := .test } else s)
    else some { s with logger := .test }
  | .finished => none
  | .shortWrite _ => none

/-- A step of the system, if the thread can take it. -/
def logStep (s : LogSys) (l : LogLabel) : Option LogSys :=
  if s.aborted then none
  else
    match l with
    | .take =>
      match s.worker with
      | some _ => none
      | none =>
        match dequeueFreeBuffer s.ctx with
        | none => some { s with aborted := true }
        -- no free buffer: the worker goes away with `NULL` and may come back
        | some (ctx, freeBp) => some { s with ctx := ctx, worker := freeBp }
    | .put =>
      match s.worker with
      | none => none
      | some workingBp =>
        match enqueueJobBuffer s.ctx workingBp with
        | none => some { s with aborted := true }
        | some ctx =>
          some { s with ctx := ctx, worker := none, enqueued := s.enqueued ++ [workingBp] }
    | .stop => some { s with ctx := { s.ctx with done := true } }
    | .logger full woken => loggerStep s full woken

/-- A new logger: `init_log_thread_context` has run. -/
def LogSys.start (ctx : LogContext) : LogSys :=
  { ctx := ctx, worker := none, logger := .test, enqueued := [], written := [], aborted := false }

/-! ### Conservation -/

/-- The buffer in the hand of the logger thread. -/
def LoggerPc.hand : LoggerPc → List LogBuff
  | .check _ _ wBuff | .write _ _ wBuff | .release _ _ wBuff | .shortWrite wBuff => [wBuff]
  | _ => []

/-- The same buffer, as long as it is not written. -/
def LoggerPc.unwritten : LoggerPc → List LogBuff
  | .check _ _ wBuff | .write _ _ wBuff => [wBuff]
  | _ => []

/-- All places where a buffer can be. -/
def LogSys.places (s : LogSys) : List LogBuff :=
  s.ctx.freeQueue ++ s.ctx.workingQueue ++ s.worker.toList ++ s.logger.hand

/-- Every buffer is in exactly one place, the counters are the lengths of the queues, no assertion on them
has failed, and the jobs were written in the order in which they were enqueued, up to the ones that wait. -/
structure LogSys.Conserved (s : LogSys) : Prop where
  place : s.places.Perm (List.finRange numLogBuff)
  free : s.ctx.freeBuffCnt = s.ctx.freeQueue.length
  job : s.ctx.jobBuffCnt = s.ctx.workingQueue.length
  asserts : s.aborted = false
  order : s.enqueued = s.written ++ s.logger.unwritten ++ s.ctx.workingQueue

/-- The logger thread does not go on with a 101st buffer in one drain. -/
def WithinBudget (s : LogSys) : LogLabel → Prop
  | .logger _ _ =>
    match s.logger with
    | .check _ cnt _ => cnt < numLogBuff
    | _ => True
  | _ => True

section Conservation

variable {s s' : LogSys} {l : LogLabel} {ctx : LogContext} {w : LogBuff}

/-- A context whose counters are right and whose queues hold at most all buffers. -/
structure LogContext.Counted (ctx : LogContext) : Prop where
  free : ctx.freeBuffCnt = ctx.freeQueue.length
  job : ctx.jobBuffCnt = ctx.workingQueue.length
  room : ctx.freeQueue.length + ctx.workingQueue.length ≤ numLogBuff

theorem LogSys.Conserved.counted (h : s.Conserved) : s.ctx.Counted where
  free := h.free
  job := h.job
  room := by
    -- the two queues are two of the places, and the places are as many as the buffers
    have hlen := h.place.length_eq
    rw [List.length_finRange] at hlen
    unfold LogSys.places at hlen
    rw [List.length_append, List.length_append, List.length_append] at hlen
    omega

/-- With a buffer in some hand there is room for it in the queues. -/
theorem LogSys.Conserved.room (h : s.Conserved)
    (hhand : 0 < s.worker.toList.length + s.logger.hand.length) :
    s.ctx.freeQueue.length + s.ctx.workingQueue.length < numLogBuff := by
  have hlen := h.place.length_eq
  rw [List.length_finRange] at hlen
  unfold LogSys.places at hlen
  rw [List.length_append, List.length_append, List.length_append] at hlen
  omega

theorem enqueueFreeBuffer_of_counted (h : ctx.Counted)
    (hroom : ctx.freeQueue.length + ctx.workingQueue.length < numLogBuff) :
    enqueueFreeBuffer ctx w = some { ctx with
      freeQueue := ctx.freeQueue ++ [w]
      freeBuffCnt := ctx.freeBuffCnt + 1 } := by
  have hfree := h.free
  have hjob := h.job
  refine if_pos ⟨?_, ?_⟩
  · show ctx.freeBuffCnt + 1 ≤ (numLogBuff : ℤ)
    omega
  · show ctx.freeBuffCnt + 1 + ctx.jobBuffCnt ≤ (numLogBuff : ℤ)
    omega

theorem enqueueJobBuffer_of_counted (h : ctx.Counted)
    (hroom : ctx.freeQueue.length + ctx.workingQueue.length < numLogBuff) :
    enqueueJobBuffer ctx w = some { ctx with
      workingQueue := ctx.workingQueue ++ [w]
      jobBuffCnt := ctx.jobBuffCnt + 1
      state := .active } := by
  have hfree := h.free
  have hjob := h.job
  refine if_pos ⟨?_, ?_⟩
  · show ctx.jobBuffCnt + 1 ≤ (numLogBuff : ℤ)
    omega
  · show ctx.freeBuffCnt + (ctx.jobBuffCnt + 1) ≤ (numLogBuff : ℤ)
    omega

theorem dequeueFreeBuffer_of_counted (h : ctx.Counted) :
    dequeueFreeBuffer ctx = some
      (match ctx.freeQueue with
      | [] => (ctx, none)
      | w :: rest => ({ ctx with freeQueue := rest, freeBuffCnt := ctx.freeBuffCnt - 1 }, some w)) := by
  have hfree := h.free
  have hjob := h.job
  have hroom := h.room
  unfold dequeueFreeBuffer
  cases hq : ctx.freeQueue with
  | nil =>
    rw [hq, List.length_nil] at hfree hroom
    refine if_pos ⟨?_, ?_⟩
    · show ctx.freeBuffCnt ≥ 0
      omega
    · show ctx.freeBuffCnt + ctx.jobBuffCnt ≤ (numLogBuff : ℤ)
      omega
  | cons w rest =>
    rw [hq, List.length_cons] at hfree hroom
    refine if_pos ⟨?_, ?_⟩
    · show ctx.freeBuffCnt - 1 ≥ 0
      omega
    · show ctx.freeBuffCnt - 1 + ctx.jobBuffCnt ≤ (numLogBuff : ℤ)
      omega

theorem dequeueJobBuffer_of_counted (h : ctx.Counted) :
    dequeueJobBuffer ctx = some
      (match ctx.workingQueue with
      | [] => ({ ctx with state := .idle }, none)
      | w :: rest =>
        ({ ctx with workingQueue := rest, jobBuffCnt := ctx.jobBuffCnt - 1 }, some w)) := by
  have hfree := h.free
  have hjob := h.job
  have hroom := h.room
  unfold dequeueJobBuffer
  cases hq : ctx.workingQueue with
  | nil =>
    rw [hq, List.length_nil] at hjob hroom
    refine if_pos ⟨?_, ?_⟩
    · show ctx.jobBuffCnt ≥ 0
      omega
    · show ctx.freeBuffCnt + ctx.jobBuffCnt ≤ (numLogBuff : ℤ)
      omega
  | cons w rest =>
    rw [hq, List.length_cons] at hjob hroom
    refine if_pos ⟨?_, ?_⟩
    · show ctx.jobBuffCnt - 1 ≥ 0
      omega
    · show ctx.freeBuffCnt + (ctx.jobBuffCnt - 1) ≤ (numLogBuff : ℤ)
      omega

/-- A step that moves no buffer. -/
theorem LogSys.Conserved.of_logger {pc : LoggerPc} (h : s.Conserved)
    (hhand : pc.hand = s.logger.hand) (hunwritten : pc.unwritten = s.logger.unwritten) :
    { s with logger := pc : LogSys }.Conserved where
  place := by
    show (s.ctx.freeQueue ++ s.ctx.workingQueue ++ s.worker.toList ++ pc.hand).Perm _
    rw [hhand]
    exact h.place
  free := h.free
  job := h.job
  asserts := h.asserts
  order := by
    show s.enqueued = s.written ++ pc.unwritten ++ s.ctx.workingQueue
    rw [hunwritten]
    exact h.order

theorem take_conserved (h : s.Conserved) (hstep : logStep s .take = some s') : s'.Conserved := by
  unfold logStep at hstep
  rw [if_neg (by rw [h.asserts]; decide)] at hstep
  dsimp only at hstep
  cases hworker : s.worker with
  | some w =>
    rw [hworker] at hstep
    cases hstep
  | none =>
    rw [hworker, dequeueFreeBuffer_of_counted h.counted] at hstep
    obtain rfl := Option.some.inj hstep
    have hplace := h.place
    have hfree := h.free
    unfold LogSys.places at hplace
    rw [hworker] at hplace
    cases hq : s.ctx.freeQueue with
    -- the worker gets `NULL`
    | nil =>
      rw [hq] at hplace
      exact {
        place := by
          unfold LogSys.places
          rw [hq]
          exact hplace
        free := hfree
        job := h.job
        asserts := h.asserts
        order := h.order }
    | cons w rest =>
      rw [hq] at hplace hfree
      exact {
        place := by
          refine List.Perm.trans ?_ hplace
          show (rest ++ s.ctx.workingQueue ++ [w] ++ s.logger.hand).Perm
            (w :: rest ++ s.ctx.workingQueue ++ [] ++ s.logger.hand)
          rw [List.perm_iff_count]
          intro a
          simp only [List.count_append, List.count_cons, List.count_nil]
          omega
        free := by
          show s.ctx.freeBuffCnt - 1 = (rest.length : ℤ)
          rw [hfree, List.length_cons]
          omega
        job := h.job
        asserts := h.asserts
        order := h.order }

theorem put_conserved (h : s.Conserved) (hstep : logStep s .put = some s') : s'.Conserved := by
  unfold logStep at hstep
  rw [if_neg (by rw [h.asserts]; decide)] at hstep
  dsimp only at hstep
  cases hworker : s.worker with
  | none =>
    rw [hworker] at hstep
    cases hstep
  | some w =>
    -- the buffer that is put is in the worker's hand, so the assertions have room for it
    have hroom := h.room (by rw [hworker]; exact Nat.add_pos_left Nat.one_pos _)
    rw [hworker] at hstep
    dsimp only at hstep
    rw [enqueueJobBuffer_of_counted h.counted hroom] at hstep
    obtain rfl := Option.some.inj hstep
    have hplace := h.place
    unfold LogSys.places at hplace
    rw [hworker] at hplace
    exact {
      place := by
        refine List.Perm.trans ?_ hplace
        show (s.ctx.freeQueue ++ (s.ctx.workingQueue ++ [w]) ++ [] ++ s.logger.hand).Perm
          (s.ctx.freeQueue ++ s.ctx.workingQueue ++ [w] ++ s.logger.hand)
        rw [List.append_nil, ← List.append_assoc]
      free := h.free
      job := by
        show s.ctx.jobBuffCnt + 1 = ((s.ctx.workingQueue ++ [w]).length : ℤ)
        rw [h.job, List.length_append]
        rfl
      asserts := h.asserts
      order := by
        show s.enqueued ++ [w] = s.written ++ s.logger.unwritten ++ (s.ctx.workingQueue ++ [w])
        rw [h.order, List.append_assoc] }

/-- `dequeue_job_bufffer` in a drain loop. -/
theorem drain_conserved {final full woken : Bool} {cnt : ℕ} (h : s.Conserved)
    (hpc : s.logger = .drain final cnt) (hstep : loggerStep s full woken = some s') :
    s'.Conserved := by
  have hplace := h.place
  have horder := h.order
  have hjob := h.job
  unfold LogSys.places at hplace
  rw [hpc] at hplace horder
  unfold loggerStep at hstep
  rw [hpc] at hstep
  dsimp only at hstep
  rw [dequeueJobBuffer_of_counted h.counted] at hstep
  cases hq : s.ctx.workingQueue with
  | nil =>
    rw [hq] at hstep hplace horder hjob
    -- the job queue is empty, and the drain ends with nothing in hand
    obtain rfl := Option.some.inj hstep
    have hafter : (afterDrain final).hand = [] ∧ (afterDrain final).unwritten = [] := by
      cases final
      · exact ⟨rfl, rfl⟩
      · exact ⟨rfl, rfl⟩
    exact {
      place := by
        unfold LogSys.places
        rw [hafter.1]
        exact hplace
      free := h.free
      job := hjob
      asserts := h.asserts
      order := by
        rw [hafter.2]
        exact horder }
  | cons w rest =>
    rw [hq] at hstep hplace horder hjob
    -- the first job goes from the queue into the logger's hand, still unwritten
    obtain rfl := Option.some.inj hstep
    exact {
      place := by
        refine List.Perm.trans ?_ hplace
        show (s.ctx.freeQueue ++ rest ++ s.worker.toList ++ [w]).Perm
          (s.ctx.freeQueue ++ w :: rest ++ s.worker.toList ++ [])
        rw [List.perm_iff_count]
        intro a
        simp only [List.count_append, List.count_cons, List.count_nil]
        omega
      free := h.free
      job := by
        show s.ctx.jobBuffCnt - 1 = (rest.length : ℤ)
        rw [hjob, List.length_cons]
        omega
      asserts := h.asserts
      order := by
        show s.enqueued = s.written ++ [w] ++ rest
        rw [horder]
        show s.written ++ [] ++ w :: rest = s.written ++ [w] ++ rest
        rw [List.append_nil, List.append_assoc]
        rfl }

/-- `enqueue_free_buffer` in a drain loop. -/
theorem release_conserved {final full woken : Bool} {cnt : ℕ} (h : s.Conserved)
    (hpc : s.logger = .release final cnt w) (hstep : loggerStep s full woken = some s') :
    s'.Conserved := by
  -- the buffer that is given back is in the hand, so the assertion has room for it
  have hroom := h.room (by rw [hpc]; exact Nat.add_pos_right _ Nat.one_pos)
  have hplace := h.place
  have horder := h.order
  unfold LogSys.places at hplace
  rw [hpc] at hplace horder
  unfold loggerStep at hstep
  rw [hpc] at hstep
  dsimp only at hstep
  rw [enqueueFreeBuffer_of_counted h.counted hroom] at hstep
  obtain rfl := Option.some.inj hstep
  exact {
    place := by
      refine List.Perm.trans ?_ hplace
      show (s.ctx.freeQueue ++ [w] ++ s.ctx.workingQueue ++ s.worker.toList ++ []).Perm
        (s.ctx.freeQueue ++ s.ctx.workingQueue ++ s.worker.toList ++ [w])
      rw [List.perm_iff_count]
      intro a
      simp only [List.count_append, List.count_cons, List.count_nil]
      omega
    free := by
      show s.ctx.freeBuffCnt + 1 = ((s.ctx.freeQueue ++ [w]).length : ℤ)
      rw [h.free, List.length_append]
      rfl
    job := h.job
    asserts := h.asserts
    order := horder }

/-- `fwrite` in a drain loop. -/
theorem write_conserved {final full woken : Bool} {cnt : ℕ} (h : s.Conserved)
    (hpc : s.logger = .write final cnt w) (hstep : loggerStep s full woken = some s') :
    s'.Conserved := by
  have hplace := h.place
  have horder := h.order
  unfold LogSys.places at hplace
  rw [hpc] at hplace horder
  -- the buffer stays in the hand and is written now
  have hwritten : ∀ pc : LoggerPc, pc.hand = [w] → pc.unwritten = [] →
      { s with written := s.written ++ [w], logger := pc : LogSys }.Conserved := by
    intro pc hhand hunwritten
    exact {
      place := by
        unfold LogSys.places
        rw [hhand]
        exact hplace
      free := h.free
      job := h.job
      asserts := h.asserts
      order := by
        rw [hunwritten, List.append_nil]
        exact horder }
  unfold loggerStep at hstep
  rw [hpc] at hstep
  dsimp only at hstep
  split at hstep
  · obtain rfl := Option.some.inj hstep
    exact hwritten (.shortWrite w) rfl rfl
  · obtain rfl := Option.some.inj hstep
    exact hwritten (.release final cnt w) rfl rfl

/-- A step of the logger thread. -/
theorem logger_conserved {full woken : Bool} (h : s.Conserved)
    (hguard : WithinBudget s (.logger full woken)) (hstep : loggerStep s full woken = some s') :
    s'.Conserved := by
  cases hpc : s.logger with
  | test =>
    unfold loggerStep at hstep
    rw [hpc] at hstep
    obtain rfl := Option.some.inj hstep
    exact h.of_logger (by rw [hpc]; rfl) (by rw [hpc]; rfl)
  | drain final cnt => exact drain_conserved h hpc hstep
  | check final cnt w =>
    unfold WithinBudget at hguard
    rw [hpc] at hguard
    have hcnt : cnt < numLogBuff := hguard
    unfold loggerStep at hstep
    rw [hpc] at hstep
    dsimp only at hstep
    -- the only place where the guard is needed
    rw [if_neg (Nat.not_lt_of_le hcnt)] at hstep
    obtain rfl := Option.some.inj hstep
    exact h.of_logger (by rw [hpc]; rfl) (by rw [hpc]; rfl)
  | write final cnt w => exact write_conserved h hpc hstep
  | release final cnt w => exact release_conserved h hpc hstep
  | wait =>
    have htest : { s with logger := .test : LogSys }.Conserved :=
      h.of_logger (by rw [hpc]; rfl) (by rw [hpc]; rfl)
    unfold loggerStep at hstep
    rw [hpc] at hstep
    dsimp only at hstep
    split at hstep
    · obtain rfl := Option.some.inj hstep
      split
      · exact htest
      · exact h
    · obtain rfl := Option.some.inj hstep
      exact htest
  | finished =>
    unfold loggerStep at hstep
    rw [hpc] at hstep
    cases hstep
  | shortWrite w =>
    unfold loggerStep at hstep
    rw [hpc] at hstep
    cases hstep

/-- **One step** within the budget of a drain conserves the buffers. -/
theorem logStep_conserved (h : s.Conserved) (hguard : WithinBudget s l)
    (hstep : logStep s l = some s') : s'.Conserved := by
  cases l with
  | take => exact take_conserved h hstep
  | put => exact put_conserved h hstep
  | stop =>
    unfold logStep at hstep
    rw [if_neg (by rw [h.asserts]; decide)] at hstep
    obtain rfl := Option.some.inj hstep
    exact ⟨h.place, h.free, h.job, h.asserts, h.order⟩
  | logger full woken =>
    unfold logStep at hstep
    rw [if_neg (by rw [h.asserts]; decide)] at hstep
    exact logger_conserved h hguard hstep

end Conservation

/-! ### Runs -/

/-- The free queue after the initialization loop. -/
theorem foldlM_enqueueFreeBuffer (bps : List LogBuff) (ctx : LogContext) (h : ctx.Counted)
    (hroom : ctx.freeQueue.length + ctx.workingQueue.length + bps.length ≤ numLogBuff) :
    bps.foldlM enqueueFreeBuffer ctx = some { ctx with
      freeQueue := ctx.freeQueue ++ bps
      freeBuffCnt := ctx.freeBuffCnt + bps.length } := by
  -- the context grows along the loop; that its counters are right goes with it
  induction bps generalizing ctx with
  | nil =>
    show some ctx = some { ctx with
      freeQueue := ctx.freeQueue ++ [], freeBuffCnt := ctx.freeBuffCnt + ((0 : ℕ) : ℤ) }
    rw [List.append_nil, Int.natCast_zero, Int.add_zero]
  | cons w bps ih =>
    rw [List.length_cons] at hroom
    rw [List.foldlM_cons, enqueueFreeBuffer_of_counted h (by omega)]
    have hnext : LogContext.Counted { ctx with
        freeQueue := ctx.freeQueue ++ [w], freeBuffCnt := ctx.freeBuffCnt + 1 } := by
      refine ⟨?_, h.job, ?_⟩
      · show ctx.freeBuffCnt + 1 = ((ctx.freeQueue ++ [w]).length : ℤ)
        rw [h.free, List.length_append]
        rfl
      · show (ctx.freeQueue ++ [w]).length + ctx.workingQueue.length ≤ numLogBuff
        rw [List.length_append, List.length_singleton]
        omega
    refine (ih _ hnext ?_).trans ?_
    · show (ctx.freeQueue ++ [w]).length + ctx.workingQueue.length + bps.length ≤ numLogBuff
      rw [List.length_append, List.length_singleton]
      omega
    · show some { ctx with
        freeQueue := ctx.freeQueue ++ [w] ++ bps
        freeBuffCnt := ctx.freeBuffCnt + 1 + (bps.length : ℤ) } = _
      rw [List.append_assoc, List.length_cons, Int.natCast_add, Int.add_assoc, Int.add_comm 1]
      rfl

/-- The context after `init_log_thread_context`: all buffers are free. -/
def freshContext : LogContext where
  freeQueue := List.finRange numLogBuff
  workingQueue := []
  freeBuffCnt := numLogBuff
  jobBuffCnt := 0
  state := .idle
  done := false

theorem initLogThreadContext_eq : initLogThreadContext = some freshContext := by
  unfold initLogThreadContext
  rw [foldlM_enqueueFreeBuffer _ _ ⟨rfl, rfl, Nat.zero_le _⟩ (by
    rw [List.length_finRange]
    exact Nat.le_of_eq (Nat.zero_add _))]
  rw [List.length_finRange]
  show some { freshContext with freeBuffCnt := 0 + (numLogBuff : ℤ) } = some freshContext
  rw [Int.zero_add]
  rfl

theorem start_conserved {ctx : LogContext} (h : initLogThreadContext = some ctx) :
    (LogSys.start ctx).Conserved := by
  rw [initLogThreadContext_eq] at h
  obtain rfl := Option.some.inj h
  exact {
    place := by
      show (List.finRange numLogBuff ++ [] ++ [] ++ []).Perm _
      rw [List.append_nil, List.append_nil, List.append_nil]
    free := by
      show (numLogBuff : ℤ) = ((List.finRange numLogBuff).length : ℤ)
      rw [List.length_finRange]
    job := rfl
    asserts := rfl
    order := rfl }

/-- **Buffers are conserved and written in order.** In every state of a run of the worker and the logger
thread, interleaved in any way, in which the logger thread never goes on with a 101st buffer in one drain,
every buffer is in exactly one place, the counters are the lengths of the queues and their assertions hold,
and the jobs are written once each, in the order in which they were enqueued. -/
theorem log_conserved (ctx : LogContext) (h₀ : initLogThreadContext = some ctx) (ls : List LogLabel)
    (s : LogSys)
    (hrun : Run (Guarded WithinBudget fun s l s' => logStep s l = some s') (LogSys.start ctx) ls s) :
    s.Conserved :=
  hrun.invariant (·.Conserved) (start_conserved h₀) fun _ _ _ hs hstep =>
    logStep_conserved hs hstep.1 hstep.2

/-- The worker logs one buffer, and the logger thread handles it in the drain it is in. -/
def oneJob : List LogLabel :=
  [.take, .put, .logger true true, .logger true true, .logger true true, .logger true true]

/-- A job is enqueued while the logger thread drains the queue, and written. -/
theorem log_conserved_one_job :
    ∃ s, Run (Guarded WithinBudget fun s l s' => logStep s l = some s') (LogSys.start freshContext)
        [.logger true true, .take, .put, .logger true true, .logger true true, .logger true true] s ∧
      s.Conserved := by
  have hput : Run (Guarded WithinBudget fun s l s' => logStep s l = some s')
      (LogSys.start freshContext) [.logger true true, .take, .put] _ :=
    ((Run.single ⟨show WithinBudget _ (.logger true true) from trivial, rfl⟩).snoc
      ⟨show WithinBudget _ .take from trivial, rfl⟩).snoc ⟨show WithinBudget _ .put from trivial, rfl⟩
  have hbudget : 0 < numLogBuff := by decide
  have hrun : Run (Guarded WithinBudget fun s l s' => logStep s l = some s')
      (LogSys.start freshContext)
      [.logger true true, .take, .put, .logger true true, .logger true true, .logger true true] _ :=
    ((hput.snoc ⟨show WithinBudget _ (.logger true true) from trivial, rfl⟩).snoc
      ⟨show WithinBudget _ (.logger true true) from hbudget, rfl⟩).snoc
        ⟨show WithinBudget _ (.logger true true) from trivial, rfl⟩
  exact ⟨_, hrun, log_conserved freshContext initLogThreadContext_eq _ _ hrun⟩

/-- The worker keeps producing: a hundred jobs within one drain, and then one more. -/
def overrun : List LogLabel :=
  [.logger true true] ++ (List.replicate 100 oneJob).flatten ++
    [.take, .put, .logger true true, .logger true true]

/-- The buffer of the last job is gone. -/
theorem overrun_loses_buffer :
    ∃ s, Run (fun s l s' => logStep s l = some s') (LogSys.start freshContext) overrun s ∧
      s.places.length = 99 ∧ ¬s.Conserved := by
  -- the whole run is evaluated, and only the number of places read off
  have hlen : (overrun.foldlM logStep (LogSys.start freshContext)).map (·.places.length) =
      some 99 := by
    decide +kernel
  obtain ⟨s, hs, hplaces⟩ := Option.map_eq_some_iff.mp hlen
  refine ⟨s, Lib.run_of_foldlM hs, hplaces, fun h => ?_⟩
  have hall := h.place.length_eq
  rw [hplaces, List.length_finRange] at hall
  cases hall

end CmtTcp
