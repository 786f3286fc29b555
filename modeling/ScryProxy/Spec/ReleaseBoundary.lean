import ScryProxy.Spec.TransactionTracking

/-!
# Requests outstanding at a release

The relay and the backend it holds, with the requests that were forwarded and not yet
answered.  A backend answers every Query and every Sync with one ReadyForQuery, in
order; what each of them will report is part of the run.  The relay gives the backend
back when the last ReadyForQuery of a read ends a transaction, and does not look at
what else it has forwarded.

If no request goes to the backend behind one that ends a transaction block, and every
backend read starts at a message boundary, a release strands nothing
(`nothingStranded_of_orderly`).  COMMIT and SELECT sent together strand the SELECT
(`pipelined_select_stranded`).
-/

namespace ScryProxy

open Frame (encodeAll)
open Relay (afterReady endsTransaction)

/-- Query and Sync are the messages that a ReadyForQuery answers. -/
def isRequest (f : Frame) : Bool := f.tag = msgQuery || f.tag = msgSync

def Effect.isRelease : Effect → Bool
  | .released _ => true
  | _ => false

/-- The relay, the backend it holds and the client. -/
structure Dialogue where
  relay : Outcome
  /-- bytes of a client frame that is not complete -/
  unfinished : List UInt8
  /-- bytes of a backend message of which the rest was not read yet -/
  unread : List UInt8
  /-- last state that the backend reported -/
  reported : TransactionState
  /-- the requests forwarded to the backend and not answered, each with the state that its
      ReadyForQuery will report -/
  owed : List TransactionState
  /-- what was owed by backends at the time they were released -/
  stranded : List TransactionState

/-- An iteration of the relay; for a client read, also the states that the answers to the requests
    it completes will report. -/
abbrev Turn := Input × List TransactionState

namespace Dialogue

/-- The relay at the start of its loop, on a backend that owes nothing. -/
def start (cfg : RelayConfig) (conn : ManagedConnection) : Dialogue :=
  ⟨.next (.start cfg conn), [], [], .idle, [], []⟩

/-- The requests that a forwarded read completes are owed from then on. -/
def forward (x : Dialogue) (data : List UInt8) (answers : List TransactionState) (sent : Bool) :
    Option Dialogue :=
  let (frames, rest) := Frame.split (x.unfinished ++ data)
  if !sent then some { x with unfinished := rest }
  else if answers.length = frames.countP isRequest then
    some { x with unfinished := rest, owed := x.owed ++ answers }
  else none

/-- A delivered read answers requests in order; the backend sends no other ReadyForQuery. -/
def deliver (x : Dialogue) (data : List UInt8) : Option Dialogue :=
  let (frames, rest) := Frame.split (x.unread ++ data)
  let statuses := frames.filterMap readyStatus
  let answered := x.owed.take statuses.length
  if statuses = answered.map TransactionState.status then
    some { x with
      unread := rest
      reported := answered.getLastD x.reported
      owed := x.owed.drop statuses.length }
  else none

/-- The backend is given back and another one, which owes nothing, takes its place. -/
def release (x : Dialogue) : Dialogue :=
  { x with unread := [], reported := .idle, owed := [], stranded := x.stranded ++ x.owed }

/-- The other side's part of an iteration with the given effects. -/
def settle (x : Dialogue) (effects : List Effect) : Turn → Option Dialogue
  | (.clientRead data _ _, answers) => x.forward data answers (.toBackend data ∈ effects)
  | (.backendRead data _ _, _) =>
    if .toClient data ∈ effects then
      (x.deliver data).map fun x => if effects.any Effect.isRelease then x.release else x
    else some x
  | _ => some x

def step (cfg : RelayConfig) (x : Dialogue) (turn : Turn) : Option Dialogue :=
  match x.relay with
  | .exit _ => none
  | .next r =>
    match Relay.step cfg r turn.1 with
    | .error _ => none
    | .ok (effects, outcome) => (x.settle effects turn).map fun x => { x with relay := outcome }

end Dialogue

/-- Some answer takes the session out of a transaction block. -/
def endsBlock : TransactionState → List TransactionState → Bool
  | _, [] => false
  | t, u :: us => (t.isInTransaction && u.isIdle) || endsBlock u us

/-- No request is sent behind one whose answer ends a transaction block, and a backend read starts
    at a message boundary. -/
def Orderly (x : Dialogue) : Turn → Prop
  | (.clientRead _ _ _, answers) =>
    answers ≠ [] → endsBlock x.reported (x.owed ++ answers.dropLast) = false
  | (.backendRead data _ _, _) => x.unread = [] ∧ ∃ part todo rest, data = encodeAll part ++ rest ∧
      Frame.Partial rest todo ∧ ∀ f ∈ part ++ todo, WellFormed f
  | _ => True

/-- When the relay gives back a backend at the end of a transaction, every request forwarded to it
    has been answered and the answer was delivered. -/
def NothingStranded (cfg : RelayConfig) (conn : ManagedConnection) (turns : List Turn) : Prop :=
  ∀ x, Trace.exec (Dialogue.step cfg) (.start cfg conn) turns = some x → x.stranded = []

/-! ## Answers in order -/

theorem endsBlock_append (t : TransactionState) (us vs : List TransactionState) :
    endsBlock t (us ++ vs) = (endsBlock t us || endsBlock (us.getLastD t) vs) := by
  induction us generalizing t with
  | nil => simp [endsBlock]
  | cons u us ih => simp only [List.cons_append, endsBlock, ih, List.getLastD_cons, Bool.or_assoc]

variable {t : TransactionState}

/-- Answers that lead from a transaction to idle end a block somewhere. -/
theorem endsBlock_of_getLastD {us : List TransactionState} (ht : t.isInTransaction = true)
    (hus : (us.getLastD t).isIdle = true) : endsBlock t us = true := by
  induction us generalizing t with
  | nil => cases t <;> simp_all [TransactionState.isInTransaction, TransactionState.isIdle]
  | cons u us ih =>
    rw [List.getLastD_cons] at hus
    cases u with
    -- the first answer ends the block, or the session is still inside it
    | idle => simp [endsBlock, ht, TransactionState.isIdle]
    | inTransaction | inError => simp [endsBlock, ih rfl hus]

/-- The scan finds what the last answer of the read reports. -/
theorem lastReady_eq (part : List Frame) : lastReady part = (part.filterMap readyStatus).getLast? := by
  induction part with
  | nil => rfl
  | cons f part ih =>
    rw [lastReady, ih, List.filterMap_cons]
    cases readyStatus f with
    | none => simp
    | some st => cases (part.filterMap readyStatus) <;> simp [List.getLast?_cons]

theorem afterReady_getLast (t : TransactionState) (us : List TransactionState) :
    afterReady t (us.map TransactionState.status).getLast? = us.getLastD t := by
  rw [List.getLast?_map, List.getLastD_eq_getLast?]
  cases us.getLast? with
  | none => rfl
  | some u => exact TransactionState.updateFromReadyForQuery_status t u

variable {x x' : Dialogue}

/-- What a delivered read of whole messages and a part of the next does. -/
theorem Dialogue.deliver_encodeAll {part todo : List Frame} {rest : List UInt8}
    (hunread : x.unread = []) (hwf : ∀ f ∈ part ++ todo, WellFormed f)
    (hrest : Frame.Partial rest todo) (h : x.deliver (encodeAll part ++ rest) = some x') :
    ∃ answered later, x.owed = answered ++ later ∧
      lastReady part = (answered.map TransactionState.status).getLast? ∧
      x' = { x with unread := rest, reported := answered.getLastD x.reported, owed := later } := by
  -- the read starts at a boundary, so it splits into just these messages
  have hsplit := Frame.split_encodeAll (fun f hf => (hwf f hf).short) hrest
  simp only [deliver, hunread, List.nil_append, hsplit] at h
  split at h
  · next heq =>
    cases h
    exact ⟨_, _, (List.take_append_drop _ _).symm, (lastReady_eq part).trans (congrArg List.getLast? heq),
      rfl⟩
  · cases h

/-! ## The invariant of orderly runs -/

/-- The tracker knows the state last reported, and of the requests owed only the last can end a
    transaction block. -/
structure InOrder (x : Dialogue) : Prop where
  tracked : ∀ r, x.relay = .next r → r.txnTracker = x.reported
  ordered : endsBlock x.reported x.owed.dropLast = false
  drained : x.stranded = []

theorem inOrder_start (cfg : RelayConfig) (conn : ManagedConnection) :
    InOrder (.start cfg conn) :=
  ⟨fun r hr => by cases hr; rfl, rfl, rfl⟩

/-- What is owed after some of the answers is still in order. -/
theorem ordered_later {answered later : List TransactionState}
    (h : endsBlock t (answered ++ later).dropLast = false) :
    endsBlock (answered.getLastD t) later.dropLast = false := by
  cases later with
  | nil => rfl
  | cons u us =>
    rw [List.dropLast_append_of_ne_nil (List.cons_ne_nil u us), endsBlock_append] at h
    exact (Bool.or_eq_false_iff.1 h).2

/-- If the answers read end a block, nothing is owed behind them. -/
theorem later_eq_nil {answered later : List TransactionState}
    (h : endsBlock t (answered ++ later).dropLast = false) (ht : t.isInTransaction = true)
    (hidle : (answered.getLastD t).isIdle = true) : later = [] := by
  cases later with
  | nil => rfl
  | cons u us =>
    rw [List.dropLast_append_of_ne_nil (List.cons_ne_nil u us), endsBlock_append,
      endsBlock_of_getLastD ht hidle] at h
    cases h

variable {data : List UInt8} {answers : List TransactionState}

/-- The requests of an orderly client read keep the order. -/
theorem forward_inOrder {sent : Bool} (hx : InOrder x)
    (hok : answers ≠ [] → endsBlock x.reported (x.owed ++ answers.dropLast) = false)
    (h : x.forward data answers sent = some x') :
    x'.reported = x.reported ∧ endsBlock x'.reported x'.owed.dropLast = false ∧
      x'.stranded = [] := by
  simp only [Dialogue.forward] at h
  split at h
  · cases h
    exact ⟨rfl, hx.ordered, hx.drained⟩
  · split at h <;> cases h
    refine ⟨rfl, ?_, hx.drained⟩
    -- a read that completes no request changes nothing that is owed
    by_cases hnil : answers = []
    · simpa [hnil] using hx.ordered
    · rw [List.dropLast_append_of_ne_nil hnil]
      exact hok hnil

/-- A backend read of an orderly run answers in order, and if it ends with a release then nothing is
    owed any more. -/
theorem deliver_inOrder (cfg : RelayConfig) {r : Relay} {part todo : List Frame} {rest : List UInt8}
    (hx : InOrder x) (hr : x.relay = .next r) (hunread : x.unread = [])
    (hdata : data = encodeAll part ++ rest) (hwf : ∀ f ∈ part ++ todo, WellFormed f)
    (hrest : Frame.Partial rest todo) (h : x.deliver data = some x') :
    extractReadyForQuery .wrapping data = .ok (lastReady part) ∧
      afterReady r.txnTracker (lastReady part) = x'.reported ∧
      endsBlock x'.reported x'.owed.dropLast = false ∧ x'.stranded = [] ∧
      (endsTransaction cfg r (lastReady part) = true → x'.owed = []) := by
  subst hdata
  obtain ⟨answered, later, howed, hlast, rfl⟩ := Dialogue.deliver_encodeAll hunread hwf hrest h
  have hordered := hx.ordered
  rw [howed] at hordered
  -- the tracker moves to what the last of these answers reports
  have hreported : afterReady r.txnTracker (lastReady part) = answered.getLastD x.reported := by
    rw [hlast, afterReady_getLast, hx.tracked r hr]
  refine ⟨extractReadyForQuery_encodeAll .wrapping hwf hrest, hreported, ordered_later hordered,
    hx.drained, fun hend => ?_⟩
  -- a release means that these answers led out of a block
  simp only [endsTransaction, Bool.and_eq_true] at hend
  obtain ⟨⟨⟨-, htxn⟩, hidle⟩, -⟩ := hend
  rw [hx.tracked r hr] at htxn
  rw [hreported] at hidle
  exact later_eq_nil hordered htxn hidle

/-- The bookkeeping of a read neither releases nor delivers anything. -/
theorem settled_silent {settled : List Effect}
    (h : ∀ e ∈ settled, (∃ p d err, e = .queryFailed p d err) ∨ ∃ p, e = .queryCompleted p) :
    settled.any Effect.isRelease = false ∧ ∀ data, .toClient data ∉ settled := by
  refine ⟨List.any_eq_false.2 fun e he => ?_, fun data hdata => ?_⟩
  · rcases h e he with ⟨_, _, _, rfl⟩ | ⟨_, rfl⟩ <;> simp [Effect.isRelease]
  · rcases h _ hdata with ⟨_, _, _, heq⟩ | ⟨_, heq⟩ <;> cases heq

/-- A read that reaches the client answers requests, and then the backend may be given back. -/
theorem Dialogue.settle_delivered {y : Dialogue} {effects : List Effect} {writes : Writes}
    {reacquired : Option ManagedConnection} (hmem : .toClient data ∈ effects)
    (h : x.settle effects (.backendRead data writes reacquired, answers) = some y) :
    ∃ x₁, x.deliver data = some x₁ ∧
      y = if effects.any Effect.isRelease then x₁.release else x₁ := by
  simp only [settle, hmem, if_true] at h
  obtain ⟨x₁, hx₁, rfl⟩ := Option.map_eq_some_iff.1 h
  exact ⟨x₁, hx₁, rfl⟩

variable {cfg : RelayConfig}

theorem backendRead_inOrder {y : Dialogue} {r : Relay} {writes : Writes}
    {reacquired : Option ManagedConnection} {effects : List Effect} {outcome : Outcome}
    (hx : InOrder x) (hr : x.relay = .next r)
    (hok : Orderly x (.backendRead data writes reacquired, answers))
    (hstep : Relay.backendRead cfg r data writes reacquired = .ok (effects, outcome))
    (hsettle : x.settle effects (.backendRead data writes reacquired, answers) = some y) :
    InOrder { y with relay := outcome } := by
  obtain ⟨hunread, part, todo, rest, hdata, hrest, hwf⟩ := hok
  obtain ⟨r₁, settled, status, -, -, hsettled, hstatus, hcases⟩ := Relay.backendRead_cases hstep
  obtain ⟨hquiet, hsilent⟩ := settled_silent hsettled
  have hdeliver := fun x₁ => @deliver_inOrder x x₁ data cfg r part todo rest hx hr hunread hdata hwf
    hrest
  rcases hcases with ⟨-, rfl, rfl⟩ | ⟨hend, hcases⟩ | ⟨rfl, rfl, -⟩
  · -- relayed: the tracker moves to what the last answer reports
    obtain ⟨x₁, hx₁, rfl⟩ := Dialogue.settle_delivered (by simp) hsettle
    obtain ⟨hscan, htracked, hordered, hdrained, -⟩ := hdeliver x₁ hx₁
    cases hstatus.symm.trans hscan
    simp only [List.any_append, hquiet, List.any_cons, Effect.isRelease, List.any_nil, Bool.or_self,
      Bool.false_eq_true, if_false]
    exact ⟨fun r' hr' => by cases hr'; exact htracked, hordered, hdrained⟩
  · -- released: nothing is owed behind the answer that ended the block
    have heffects : .toClient data ∈ effects ∧ effects.any Effect.isRelease = true := by
      rcases hcases with ⟨conn, -, rfl, -⟩ | ⟨-, rfl, -⟩ <;> simp [Effect.isRelease]
    obtain ⟨x₁, hx₁, rfl⟩ := Dialogue.settle_delivered heffects.1 hsettle
    obtain ⟨hscan, htracked, -, hdrained, hnone⟩ := hdeliver x₁ hx₁
    cases hstatus.symm.trans hscan
    rw [if_pos heffects.2]
    refine ⟨fun r' hr' => ?_, rfl, by simp [Dialogue.release, hdrained, hnone hend]⟩
    simp only [endsTransaction, Bool.and_eq_true] at hend
    have hidle := hend.1.2
    rcases hcases with ⟨conn, -, -, rfl⟩ | ⟨-, -, rfl⟩
    · cases hr'
      exact TransactionState.isIdle_iff.1 hidle
    · cases hr'
  · simp only [Dialogue.settle, hsilent data, if_false] at hsettle
    cases hsettle
    refine ⟨fun r' hr' => ?_, hx.ordered, hx.drained⟩
    cases hr'

/-- Every orderly turn keeps the order. -/
theorem inOrder_step {turn : Turn} (hx : InOrder x) (hok : Orderly x turn)
    (h : x.step cfg turn = some x') : InOrder x' := by
  obtain ⟨input, answers⟩ := turn
  unfold Dialogue.step at h
  split at h
  · cases h
  next r hr =>
  split at h
  · cases h
  next effects outcome hstep =>
  obtain ⟨y, hsettle, rfl⟩ := Option.map_eq_some_iff.1 h
  cases input with
  | clientRead data now writes =>
    obtain ⟨hreported, hordered, hdrained⟩ := forward_inOrder hx hok hsettle
    refine ⟨fun r' hr' => ?_, hordered, hdrained⟩
    cases hr'
    -- a client read leaves the tracker alone
    rw [← Except.ok.inj (step_txnTracker hstep), hx.tracked r hr]
    exact hreported.symm
  | backendRead data writes reacquired => exact backendRead_inOrder hx hr hok hstep hsettle
  | clientClosed | backendClosed =>
    cases hstep; cases hsettle
    exact ⟨nofun, hx.ordered, hx.drained⟩
  | deadline now =>
    cases hsettle
    refine ⟨fun r' hr' => ?_, hx.ordered, hx.drained⟩
    cases hr'
    rw [← Except.ok.inj (step_txnTracker hstep), ← hx.tracked r hr]

/-- In an orderly run no release strands a request. -/
theorem nothingStranded_of_orderly (cfg : RelayConfig) (conn : ManagedConnection)
    (turns : List Turn)
    (horderly : Trace.Admits (Dialogue.step cfg) Orderly (.start cfg conn) turns) :
    NothingStranded cfg conn turns := by
  intro x hrun
  have hkeep : ∀ x turn x', InOrder x → Orderly x turn → Dialogue.step cfg x turn = some x' →
      InOrder x' := fun x turn x' hx hok hstep => inOrder_step hx hok hstep
  have horder : InOrder x :=
    Trace.exec_invariant hkeep (inOrder_start cfg conn) horderly hrun
  exact horder.drained

theorem not_nothingStranded {conn : ManagedConnection} {turns : List Turn}
    {left : List TransactionState} (h : (Trace.exec (Dialogue.step cfg) (.start cfg conn) turns).map
      Dialogue.stranded = some left) (hleft : left ≠ []) : ¬ NothingStranded cfg conn turns := by
  intro hnone
  obtain ⟨x, hrun, rfl⟩ := Option.map_eq_some_iff.1 h
  exact hleft (hnone x hrun)

/-- A Query with the given text. -/
def queryFrame (sql : String) : Frame := ⟨msgQuery, asciiBytes sql ++ [0]⟩

/-- The answer to a command: its tag and the state after it. -/
def answerFrames (tag : String) (t : TransactionState) : List Frame :=
  [⟨msgCommandComplete, asciiBytes tag ++ [0]⟩, readyFrame t]

/-- What an orderly turn depends on. -/
def Dialogue.view (x : Dialogue) : List UInt8 × TransactionState × List TransactionState :=
  (x.unread, x.reported, x.owed)

theorem orderly_requests {unread : List UInt8} {owed : List TransactionState}
    (hview : x.view = (unread, t, owed)) (h : endsBlock t (owed ++ answers.dropLast) = false)
    (data : List UInt8) (now : Nat) (writes : Writes) :
    Orderly x (.clientRead data now writes, answers) := by
  cases hview
  exact fun _ => h

theorem orderly_answer {u : TransactionState} {owed : List TransactionState}
    (hview : x.view = ([], u, owed)) {tag : String} (htag : (asciiBytes tag).length < 1000)
    (writes : Writes) (reacquired : Option ManagedConnection) (answers : List TransactionState) :
    Orderly x (.backendRead (encodeAll (answerFrames tag t)) writes reacquired, answers) := by
  have hunread : x.unread = [] := congrArg Prod.fst hview
  refine ⟨hunread, answerFrames tag t, [], [], (List.append_nil _).symm, rfl, fun f hf => ?_⟩
  simp only [answerFrames, List.append_nil, List.mem_cons, List.not_mem_nil, or_false] at hf
  rcases hf with rfl | rfl
  · refine ⟨?_, fun htag => absurd (show msgCommandComplete = msgReadyForQuery from htag) (by decide)⟩
    simp only [Frame.len, List.length_append, List.length_singleton]
    omega
  · exact wellFormed_readyFrame t

/-- BEGIN and COMMIT, each sent after the answer to the one before, and two SELECTs pipelined
    outside a transaction. -/
theorem nothingStranded_begin_commit :
    NothingStranded ⟨.transaction, 0, 100⟩ ⟨⟨0, none⟩, 0, false⟩
      [(.clientRead (queryFrame "BEGIN").encode 0 {}, [.inTransaction]),
        (.backendRead (encodeAll (answerFrames "BEGIN" .inTransaction)) {} none, []),
        (.clientRead (queryFrame "COMMIT").encode 0 {}, [.idle]),
        (.backendRead (encodeAll (answerFrames "COMMIT" .idle)) {}
          (some ⟨⟨1, none⟩, 0, false⟩), []),
        (.clientRead (encodeAll [queryFrame "SELECT 1", queryFrame "SELECT 2"]) 0 {},
          [.idle, .idle])] := by
  refine nothingStranded_of_orderly _ _ _ (Trace.admits_of_take fun n turn x hturn hrun => ?_)
  -- what is unread, reported and owed before each turn
  have hstates : ∀ n < 5, (Trace.exec (Dialogue.step ⟨.transaction, 0, 100⟩)
      (.start ⟨.transaction, 0, 100⟩ ⟨⟨0, none⟩, 0, false⟩) (List.take n
        [(.clientRead (queryFrame "BEGIN").encode 0 {}, [.inTransaction]),
        (.backendRead (encodeAll (answerFrames "BEGIN" .inTransaction)) {} none, []),
        (.clientRead (queryFrame "COMMIT").encode 0 {}, [.idle]),
        (.backendRead (encodeAll (answerFrames "COMMIT" .idle)) {}
          (some ⟨⟨1, none⟩, 0, false⟩), []),
        (.clientRead (encodeAll [queryFrame "SELECT 1", queryFrame "SELECT 2"]) 0 {},
          [.idle, .idle])])).map Dialogue.view =
      [([], .idle, []), ([], .idle, [.inTransaction]), ([], .inTransaction, []),
        ([], .inTransaction, [.idle]), ([], .idle, [])][n]? := by
    decide +kernel
  have hstate := hstates n
  rw [hrun] at hstate
  rcases n with _ | _ | _ | _ | _ | n
  · obtain rfl := Option.some.inj hturn
    exact orderly_requests (Option.some.inj (hstate (by decide))) rfl _ _ _
  · obtain rfl := Option.some.inj hturn
    exact orderly_answer (Option.some.inj (hstate (by decide))) (by decide) _ _ _
  · obtain rfl := Option.some.inj hturn
    exact orderly_requests (Option.some.inj (hstate (by decide))) rfl _ _ _
  · obtain rfl := Option.some.inj hturn
    exact orderly_answer (Option.some.inj (hstate (by decide))) (by decide) _ _ _
  · obtain rfl := Option.some.inj hturn
    exact orderly_requests (Option.some.inj (hstate (by decide))) rfl _ _ _
  · cases hturn

/-- COMMIT and SELECT sent together in a transaction: the backend goes back when COMMIT is answered,
    while it still owes the answer to SELECT. -/
theorem pipelined_select_stranded :
    ¬ NothingStranded ⟨.transaction, 0, 100⟩ ⟨⟨0, none⟩, 0, false⟩
      [(.clientRead (queryFrame "BEGIN").encode 0 {}, [.inTransaction]),
        (.backendRead (encodeAll (answerFrames "BEGIN" .inTransaction)) {} none, []),
        (.clientRead (encodeAll [queryFrame "COMMIT", queryFrame "SELECT 1"]) 0 {}, [.idle, .idle]),
        (.backendRead (encodeAll (answerFrames "COMMIT" .idle)) {}
          (some ⟨⟨1, none⟩, 0, false⟩), [])] :=
  not_nothingStranded (by decide +kernel : _ = some [TransactionState.idle]) (by decide)

end ScryProxy
