import ScryProxy.Spec.AnonymizedEvents
import ScryProxy.Spec.TransactionTracking

/-!
# Where the error text of an event comes from

Two sessions whose backend streams differ in the values of DataRow columns, and in nothing
else, should publish the same errors.  The relay scans each read from its first byte.  A
read that starts at a message boundary is scanned message by message, and a row is skipped
whatever its values are (`alikeReads_of_boundary`); so the events agree in every pair of
runs whose differing reads all start there (`sameErrors_of_boundary`).  A read that starts
inside a row is scanned from there, and the row's bytes can pass for an ErrorResponse
(`row_value_published`).
-/

namespace ScryProxy

open Frame (encodeAll)

/-! ## Rows -/

def msgDataRow : UInt8 := 'D'.toUInt8

/-- A column of a DataRow: its length and its value, or `-1` for NULL. -/
def encodeColumn : Option (List UInt8) → List UInt8
  | none => [255, 255, 255, 255]
  | some value => BigEndian.bytes32 value.length ++ value

def dataRow (columns : List (Option (List UInt8))) : Frame where
  tag := msgDataRow
  payload := [UInt8.ofNat (columns.length / 2 ^ 8), UInt8.ofNat columns.length] ++
    columns.flatMap encodeColumn

/-- The messages are equal, or they are rows with columns of the same lengths. -/
def RowTwins (f g : Frame) : Prop :=
  f = g ∨ ∃ columns₁ columns₂,
    columns₁.map (Option.map List.length) = columns₂.map (Option.map List.length) ∧
      f = dataRow columns₁ ∧ g = dataRow columns₂

theorem length_flatMap_encodeColumn (columns : List (Option (List UInt8))) :
    (columns.flatMap encodeColumn).length =
      ((columns.map (Option.map List.length)).map fun n => 4 + n.getD 0).sum := by
  have hcolumn : ∀ c, (encodeColumn c).length = 4 + (c.map List.length).getD 0 := by
    intro c
    cases c with
    | none => rfl
    | some value => exact List.length_append
  simp only [List.length_flatMap, List.map_map, Function.comp_def, hcolumn]

theorem RowTwins.length_payload {f g : Frame} (h : RowTwins f g) :
    f.payload.length = g.payload.length := by
  rcases h with rfl | ⟨columns₁, columns₂, h, rfl, rfl⟩
  · rfl
  · simp only [dataRow, List.length_append, length_flatMap_encodeColumn, h, List.length_cons,
      List.length_nil]

/-! ## Scans of rows -/

/-- The scans of two reads have the same results. -/
structure AlikeReads (d₁ d₂ : List UInt8) : Prop where
  errors : findErrorFields .wrapping d₁ = findErrorFields .wrapping d₂
  complete : isQueryComplete .wrapping d₁ = isQueryComplete .wrapping d₂
  ready : extractReadyForQuery .wrapping d₁ = extractReadyForQuery .wrapping d₂

/-- The scans skip a row: it has a payload, and none of the tags they look for. -/
theorem scans_twins {fs gs : List Frame} (htwins : List.Forall₂ RowTwins fs gs)
    (tail : Rust (Option ErrorFields)) :
    scanErrors tail fs = scanErrors tail gs ∧ lastReady fs = lastReady gs ∧
      fs.any (endsQuery ·.tag) = gs.any (endsQuery ·.tag) := by
  induction htwins with
  | nil => exact ⟨rfl, rfl, rfl⟩
  | @cons f g fs gs hfg _ ih =>
    obtain ⟨herrors, hready, hends⟩ := ih
    rcases hfg with rfl | ⟨columns₁, columns₂, -, rfl, rfl⟩
    · rw [scanErrors, scanErrors, herrors, lastReady, lastReady, hready, List.any_cons, List.any_cons,
        hends]
      exact ⟨rfl, rfl, rfl⟩
    · refine ⟨herrors, ?_, hends⟩
      rw [lastReady, lastReady, hready]
      rfl

/-- A row that is not all there ends the scan for errors. -/
theorem findErrorLoop_front_row {columns : List (Option (List UInt8))} {rest : List UInt8}
    (hshort : (dataRow columns).len < 2 ^ 31) (hfront : rest <+: (dataRow columns).encode)
    (hlt : rest.length < (dataRow columns).encode.length) (fuel : Nat) :
    findErrorLoop .wrapping fuel rest = .ok none := by
  match fuel, rest with
  | 0, _ => rfl
  | _ + 1, [] | _ + 1, [_] | _ + 1, [_, _] | _ + 1, [_, _, _] | _ + 1, [_, _, _, _] => rfl
  | fuel + 1, t :: b₀ :: b₁ :: b₂ :: b₃ :: body =>
    obtain ⟨rfl, hi32, -⟩ := Frame.header_of_front hfront hshort
    have htag : (dataRow columns).tag ≠ msgErrorResponse :=
      show msgDataRow ≠ msgErrorResponse by decide
    have hcut : ¬ ((4 : Int) < (dataRow columns).len ∧
        ((dataRow columns).len : Int).toNat - 4 ≤ body.length) := by
      simp only [List.length_cons, Frame.length_encode, Frame.len] at hlt ⊢
      omega
    simp only [findErrorLoop, htag, if_false, hi32, hcut]

theorem headerTag_front_row {columns : List (Option (List UInt8))} {rest : List UInt8}
    (hshort : (dataRow columns).len < 2 ^ 31) (hfront : rest <+: (dataRow columns).encode) :
    (headerTag rest).any endsQuery = false := by
  match rest with
  | [] | [_] | [_, _] | [_, _, _] | [_, _, _, _] => rfl
  | t :: b₀ :: b₁ :: b₂ :: b₃ :: body =>
    obtain ⟨rfl, -, -⟩ := Frame.header_of_front hfront hshort
    rfl

/-- The parts of the last messages are equal, or both are fronts of rows. -/
theorem rest_twins {fs gs : List Frame} {u v : List UInt8} (htwins : List.Forall₂ RowTwins fs gs)
    (hwf : ∀ f ∈ fs, WellFormed f) (hwf' : ∀ g ∈ gs, WellFormed g) (hu : Frame.Partial u fs)
    (hv : Frame.Partial v gs) (hlen : u.length = v.length) (fuel : Nat) :
    findErrorLoop .wrapping fuel u = findErrorLoop .wrapping fuel v ∧
      (headerTag u).any endsQuery = (headerTag v).any endsQuery := by
  cases htwins with
  | nil =>
    obtain rfl : u = [] := hu
    obtain rfl : v = [] := hv
    exact ⟨rfl, rfl⟩
  | @cons f g fs gs hfg _ =>
    have hshort := (hwf f List.mem_cons_self).short
    have hshort' := (hwf' g List.mem_cons_self).short
    rcases hfg with rfl | ⟨columns₁, columns₂, -, rfl, rfl⟩
    · obtain rfl : u = v :=
        (List.prefix_of_prefix_length_le hu.1 hv.1 hlen.le).eq_of_length hlen
      exact ⟨rfl, rfl⟩
    · rw [findErrorLoop_front_row hshort hu.1 hu.2, findErrorLoop_front_row hshort' hv.1 hv.2,
        headerTag_front_row hshort hu.1, headerTag_front_row hshort' hv.1]
      exact ⟨rfl, rfl⟩

/-- Reads that start at a message boundary of streams that differ in rows only. -/
theorem alikeReads_of_boundary {fs gs : List Frame} {d₁ d₂ : List UInt8}
    (htwins : List.Forall₂ RowTwins fs gs) (hwf : ∀ f ∈ fs, WellFormed f)
    (hwf' : ∀ g ∈ gs, WellFormed g) (h₁ : d₁ <+: encodeAll fs) (h₂ : d₂ <+: encodeAll gs)
    (hlen : d₁.length = d₂.length) : AlikeReads d₁ d₂ := by
  obtain ⟨fs₁, fs₂, gs₁, gs₂, u, v, rfl, rfl, rfl, rfl, hdone, htodo, hu, hv, hlen'⟩ :=
    Frame.prefix_encodeAll_pair (fun _ _ => RowTwins.length_payload) htwins h₁ h₂ hlen
  have hfs₁ : ∀ f ∈ fs₁, f.len < 2 ^ 31 := fun f hf => (hwf f (List.mem_append_left _ hf)).short
  have hgs₁ : ∀ g ∈ gs₁, g.len < 2 ^ 31 := fun g hg => (hwf' g (List.mem_append_left _ hg)).short
  obtain ⟨-, hheader⟩ := rest_twins htodo (fun f hf => hwf f (List.mem_append_right _ hf))
    (fun g hg => hwf' g (List.mem_append_right _ hg)) hu hv hlen' 0
  have hscans := scans_twins hdone
  refine ⟨?_, ?_, ?_⟩
  · -- both scans take a round for each of the messages and have as much fuel left after them
    have hfuel : fs₁.length ≤ (encodeAll fs₁ ++ u).length := by
      have := Frame.length_le_encodeAll fs₁
      rw [List.length_append]
      omega
    obtain ⟨fuel, hfuel⟩ := Nat.exists_eq_add_of_le hfuel
    obtain ⟨herrors, -⟩ := rest_twins htodo (fun f hf => hwf f (List.mem_append_right _ hf))
      (fun g hg => hwf' g (List.mem_append_right _ hg)) hu hv hlen' fuel
    rw [findErrorFields, findErrorFields, ← hlen, hfuel, findErrorLoop_encodeAll _ hfs₁,
      hdone.length_eq, findErrorLoop_encodeAll _ hgs₁, herrors, (hscans _).1]
  · rw [isQueryComplete_encodeAll _ (fun f hf => (hwf f hf).short) hu,
      isQueryComplete_encodeAll _ (fun g hg => (hwf' g hg).short) hv, hheader,
      (hscans (.ok none)).2.2]
  · rw [extractReadyForQuery_encodeAll _ hwf hu, extractReadyForQuery_encodeAll _ hwf' hv,
      (hscans (.ok none)).2.1]

/-! ## Two runs -/

/-- The same iteration, but for the bytes of a backend read. -/
inductive SameArm : Input → Input → Prop
  | backendRead {d₁ d₂ : List UInt8} {writes : Writes} {reacquired : Option ManagedConnection}
      (hlen : d₁.length = d₂.length) :
      SameArm (.backendRead d₁ writes reacquired) (.backendRead d₂ writes reacquired)
  | other (input : Input) : SameArm input input

/-- Two sessions with the same inputs, except that their backend streams differ in the values of
    columns. -/
structure TwinRuns (fs₁ fs₂ : List Frame) (inputs₁ inputs₂ : List Input) : Prop where
  rows : List.Forall₂ RowTwins fs₁ fs₂
  cut₁ : Cut fs₁ (backendReads inputs₁)
  cut₂ : Cut fs₂ (backendReads inputs₂)
  arms : List.Forall₂ SameArm inputs₁ inputs₂

/-- A read in which the runs differ starts at a message boundary. -/
def RowsFromBoundary (fs : List Frame) (reads₁ reads₂ : List (List UInt8)) : Prop :=
  ∀ n d₁ d₂, reads₁[n]? = some d₁ → reads₂[n]? = some d₂ → d₁ ≠ d₂ →
    ∃ done todo, fs = done ++ todo ∧ (reads₁.take n).flatten = encodeAll done

/-- Error field and success flag of the events of a run. -/
def publishedErrors (cfg : RelayConfig) (settings : AnonymizationSettings) (P : SqlParser)
    (r : Relay) (inputs : List Input) : Rust (List (Option Str × Bool)) := do
  let (effects, _) ← Relay.run cfg r inputs
  let events ← settings.events P effects
  return events.map fun event => (event.error, event.success)

section Published

variable (cfg : RelayConfig) (settings : AnonymizationSettings) (P : SqlParser)

/-- What an effect adds to the published errors. -/
def errorsOf (effect : Effect) : Rust (List (Option Str × Bool)) :=
  (settings.eventsOf P effect).map (List.map fun event => (event.error, event.success))

/-- An iteration as the published errors show it, with the outcome. -/
def view (result : List Effect × Outcome) : List (Rust (List (Option Str × Bool))) × Outcome :=
  (result.1.map (errorsOf settings P), result.2)

theorem events_map_eq (effects : List Effect) :
    (settings.events P effects).map (List.map fun event => (event.error, event.success)) =
      ((effects.map (errorsOf settings P)).mapM id).map List.flatten := by
  have hmap : ∀ effects, (settings.events P effects).map
      (List.map fun event => (event.error, event.success)) =
        (effects.mapM (settings.eventsOf P)).map fun parts =>
          (parts.flatten.map fun event => (event.error, event.success)) := by
    intro effects
    unfold AnonymizationSettings.events
    cases effects.mapM (settings.eventsOf P) <;> rfl
  rw [hmap]
  induction effects with
  | nil => rfl
  | cons effect effects ih =>
    rw [List.map_cons, List.mapM_cons, List.mapM_cons, id, errorsOf]
    cases settings.eventsOf P effect with
    | error e => rfl
    | ok events =>
      -- the first events are there, so both sides are decided by the rest
      rcases Rust.map_eq_map ih with ⟨e, hrest, hshown⟩ | ⟨rest, shown, hrest, hshown, hflat⟩
      · rw [hrest, hshown]
        rfl
      · rw [hrest, hshown]
        show Except.ok _ = Except.ok _
        simp only [List.flatten_cons, List.map_append, hflat]

/-- The published errors are decided by the iterations as `view` shows them. -/
theorem publishedErrors_eq (r : Relay) (inputs : List Input) :
    publishedErrors cfg settings P r inputs =
      ((Relay.run cfg r inputs).map (view settings P)).bind fun shown =>
        (shown.1.mapM id).map List.flatten := by
  unfold publishedErrors
  cases Relay.run cfg r inputs with
  | error e => rfl
  | ok result =>
    show _ = ((result.1.map (errorsOf settings P)).mapM id).map List.flatten
    rw [← events_map_eq]
    show (settings.events P result.1 >>= _) = _
    cases settings.events P result.1 <;> rfl

variable {d₁ d₂ : List UInt8} (h : AlikeReads d₁ d₂)

include h

theorem errorsOf_queryFailed (pending : PendingExecution) (fullError : Str) :
    errorsOf settings P (.queryFailed pending d₁ fullError) =
      errorsOf settings P (.queryFailed pending d₂ fullError) := by
  have hfield : settings.errorField d₁ fullError = settings.errorField d₂ fullError := by
    unfold AnonymizationSettings.errorField extractErrorScrubbed
    rw [h.errors]
  show ((settings.errorField d₁ fullError >>= _).map _) = _
  rw [hfield]
  rfl

theorem settlePending_alike (r : Relay) :
    (Relay.settlePending r d₁).map (fun p => (p.1, p.2.map (errorsOf settings P))) =
      (Relay.settlePending r d₂).map (fun p => (p.1, p.2.map (errorsOf settings P))) := by
  have herror : extractError .wrapping d₁ = extractError .wrapping d₂ := by
    unfold extractError
    rw [h.errors]
  unfold Relay.settlePending
  rw [herror, h.complete]
  cases extractError .wrapping d₂ with
  | error e => rfl
  | ok error =>
    cases error with
    | none => rfl
    | some error =>
      simp only [Rust.ok_bind]
      split
      · simp only [Rust.pure_eq_ok, Except.map, List.map_cons, List.map_nil,
          errorsOf_queryFailed settings P h]
      · rfl

/-- A backend read is handled alike for alike reads, but for the bytes that are passed on. -/
theorem backendRead_alike (r : Relay) (writes : Writes) (reacquired : Option ManagedConnection) :
    (Relay.backendRead cfg r d₁ writes reacquired).map (view settings P) =
      (Relay.backendRead cfg r d₂ writes reacquired).map (view settings P) := by
  rw [Relay.backendRead_eq, Relay.backendRead_eq, h.ready]
  rcases Rust.map_eq_map (settlePending_alike settings P h r) with
    ⟨e, hs₁, hs₂⟩ | ⟨⟨r₁, effects₁⟩, ⟨r₂, effects₂⟩, hs₁, hs₂, hpq⟩
  · rw [hs₁, hs₂]
    rfl
  obtain ⟨hr, heffects⟩ := Prod.mk.inj hpq
  obtain rfl : r₁ = r₂ := hr
  rw [hs₁, hs₂]
  cases extractReadyForQuery .wrapping d₂ with
  | error e => rfl
  | ok status =>
    -- the bytes passed on add nothing to what is shown
    have hadd : ∀ tail₁ tail₂ : List Effect,
        tail₁.map (errorsOf settings P) = tail₂.map (errorsOf settings P) →
          (effects₁ ++ tail₁).map (errorsOf settings P) =
            (effects₂ ++ tail₂).map (errorsOf settings P) := by
      intro tail₁ tail₂ htail
      rw [List.map_append, List.map_append, htail]
      exact congrArg (· ++ _) heffects
    show Except.ok (view settings P _) = Except.ok (view settings P _)
    unfold Relay.relayRead
    split
    · exact congrArg Except.ok (Prod.ext heffects rfl)
    · split
      · cases reacquired with
        | none => exact congrArg Except.ok (Prod.ext (hadd [_, _] [_, _] rfl) rfl)
        | some conn => exact congrArg Except.ok (Prod.ext (hadd [_, _, _] [_, _, _] rfl) rfl)
      · exact congrArg Except.ok (Prod.ext (hadd [_] [_] rfl) rfl)

omit h in
/-- Runs with alike reads show the same, from any state of the loop. -/
theorem run_alike {inputs₁ inputs₂ : List Input} (harms : List.Forall₂ SameArm inputs₁ inputs₂)
    (hreads : List.Forall₂ AlikeReads (backendReads inputs₁) (backendReads inputs₂)) (r : Relay) :
    (Relay.run cfg r inputs₁).map (view settings P) =
      (Relay.run cfg r inputs₂).map (view settings P) := by
  induction harms generalizing r with
  | nil => rfl
  | @cons input₁ input₂ inputs₁ inputs₂ harm _ ih =>
    have hstep : (Relay.step cfg r input₁).map (view settings P) =
        (Relay.step cfg r input₂).map (view settings P) ∧
        List.Forall₂ AlikeReads (backendReads inputs₁) (backendReads inputs₂) := by
      cases harm with
      | backendRead hlen =>
        obtain ⟨halike, hreads⟩ := List.forall₂_cons.1 hreads
        exact ⟨backendRead_alike cfg settings P halike r _ _, hreads⟩
      | other =>
        refine ⟨rfl, ?_⟩
        cases input₁ with
        | backendRead data writes reacquired => exact (List.forall₂_cons.1 hreads).2
        | clientRead | clientClosed | backendClosed | deadline => exact hreads
    unfold Relay.run
    rcases Rust.map_eq_map hstep.1 with
      ⟨e, h₁, h₂⟩ | ⟨⟨effects₁, outcome⟩, ⟨effects₂, outcome₂⟩, h₁, h₂, hview⟩
    · rw [h₁, h₂]
      rfl
    obtain ⟨heffects, houtcome⟩ := Prod.mk.inj hview
    obtain rfl : outcome = outcome₂ := houtcome
    rw [h₁, h₂]
    cases outcome with
    | exit how => exact congrArg Except.ok (Prod.ext heffects rfl)
    | next r' =>
      -- the loop goes on from the same state in both runs
      simp only [Rust.ok_bind]
      rcases Rust.map_eq_map (ih hstep.2 r') with
        ⟨e, h₁, h₂⟩ | ⟨⟨more₁, outcome⟩, ⟨more₂, outcome₂⟩, h₁, h₂, hview⟩
      · rw [h₁, h₂]
        rfl
      obtain ⟨hmore, houtcome⟩ := Prod.mk.inj hview
      rw [h₁, h₂]
      refine congrArg Except.ok (Prod.ext ?_ houtcome)
      show (effects₁ ++ more₁).map _ = (effects₂ ++ more₂).map _
      rw [List.map_append, List.map_append]
      exact congrArg₂ (· ++ ·) heffects hmore

end Published

theorem AlikeReads.rfl {data : List UInt8} : AlikeReads data data := ⟨Eq.refl _, Eq.refl _, Eq.refl _⟩

theorem length_backendReads {inputs₁ inputs₂ : List Input}
    (harms : List.Forall₂ SameArm inputs₁ inputs₂) :
    (backendReads inputs₁).map List.length = (backendReads inputs₂).map List.length := by
  induction harms with
  | nil => rfl
  | @cons input₁ input₂ inputs₁ inputs₂ harm _ ih =>
    cases harm with
    | backendRead hlen => exact congrArg₂ List.cons hlen ih
    | other =>
      cases input₁ with
      | backendRead data writes reacquired => exact congrArg (List.cons _) ih
      | clientRead | clientClosed | backendClosed | deadline => exact ih

/-- Behind a message boundary the reads are a prefix of the messages to come. -/
theorem drop_flatten_of_boundary {done todo : List Frame} {reads : List (List UInt8)} {n : Nat}
    (hflatten : reads.flatten = encodeAll (done ++ todo))
    (hlen : (reads.take n).flatten.length = (encodeAll done).length) :
    (reads.drop n).flatten = encodeAll todo := by
  rw [← List.take_append_drop n reads, List.flatten_append, Frame.encodeAll_append] at hflatten
  exact (List.append_inj hflatten hlen).2

/-- Reads of streams that differ in rows only are scanned alike, if those that differ start at a
    message boundary. -/
theorem alikeReads_of_cut {fs₁ fs₂ : List Frame} {reads₁ reads₂ : List (List UInt8)}
    (hrows : List.Forall₂ RowTwins fs₁ fs₂) (hcut₁ : Cut fs₁ reads₁) (hcut₂ : Cut fs₂ reads₂)
    (hlens : reads₁.map List.length = reads₂.map List.length)
    (hboundary : RowsFromBoundary fs₁ reads₁ reads₂) : List.Forall₂ AlikeReads reads₁ reads₂ := by
  have hlength : reads₁.length = reads₂.length := by simpa using congrArg List.length hlens
  refine List.forall₂_iff_get.2 ⟨hlength, fun n h₁ h₂ => ?_⟩
  rw [List.get_eq_getElem, List.get_eq_getElem]
  by_cases heq : reads₁[n] = reads₂[n]
  · rw [heq]
    exact .rfl
  obtain ⟨done, todo, rfl, hflat⟩ := hboundary n reads₁[n] reads₂[n]
    (List.getElem?_eq_getElem h₁) (List.getElem?_eq_getElem h₂) heq
  -- the other stream has a message boundary at the same place
  have hdone : List.Forall₂ RowTwins done (fs₂.take done.length) := by
    have htake := List.forall₂_take done.length hrows
    rwa [List.take_left] at htake
  have htodo : List.Forall₂ RowTwins todo (fs₂.drop done.length) := by
    have hdrop := List.forall₂_drop done.length hrows
    rwa [List.drop_left] at hdrop
  have hlens' : (reads₂.take n).flatten.length = (encodeAll (fs₂.take done.length)).length := by
    rw [← Frame.length_encodeAll_pair (fun _ _ => RowTwins.length_payload) hdone, ← hflat,
      List.length_flatten, List.length_flatten, List.map_take, List.map_take, hlens]
  have hrest₁ := drop_flatten_of_boundary hcut₁.flatten (congrArg List.length hflat)
  have hrest₂ := @drop_flatten_of_boundary (fs₂.take done.length) (fs₂.drop done.length) reads₂ n
    (by rw [List.take_append_drop]; exact hcut₂.flatten) hlens'
  rw [List.drop_eq_getElem_cons h₁, List.flatten_cons] at hrest₁
  rw [List.drop_eq_getElem_cons h₂, List.flatten_cons] at hrest₂
  have hsame : (reads₁[n]).length = (reads₂[n]).length := by
    have hget := congrArg (fun lens => lens[n]?) hlens
    simpa [h₁, h₂] using hget
  exact alikeReads_of_boundary htodo (fun f hf => hcut₁.wellFormed f (by simp [hf]))
    (fun f hf => hcut₂.wellFormed f (List.mem_of_mem_drop hf))
    ⟨_, hrest₁⟩ ⟨_, hrest₂⟩ hsame

/-- In every pair of runs in which each read that differs starts at a message boundary, the events
    have the same errors and success flags. -/
theorem sameErrors_of_boundary {fs₁ fs₂ : List Frame} {inputs₁ inputs₂ : List Input}
    (htwins : TwinRuns fs₁ fs₂ inputs₁ inputs₂)
    (hboundary : RowsFromBoundary fs₁ (backendReads inputs₁) (backendReads inputs₂))
    (cfg : RelayConfig) (settings : AnonymizationSettings) (P : SqlParser) (r : Relay) :
    publishedErrors cfg settings P r inputs₁ = publishedErrors cfg settings P r inputs₂ := by
  have hreads := alikeReads_of_cut htwins.rows htwins.cut₁ htwins.cut₂
    (length_backendReads htwins.arms) hboundary
  rw [publishedErrors_eq, publishedErrors_eq, run_alike cfg settings P htwins.arms hreads r]

/-! ## One row -/

/-- The answer to a query with one row of one column. -/
def rowAnswer (value : List UInt8) : List Frame :=
  [dataRow [some value], ⟨msgCommandComplete, asciiBytes "SELECT 1" ++ [0]⟩, readyFrame .idle]

/-- A query, and the reads of its answer. -/
def asking (reads : List (List UInt8)) : List Input :=
  .clientRead (Frame.encode ⟨msgQuery, asciiBytes "SELECT name" ++ [0]⟩) 0 {} ::
    reads.map (.backendRead · {} none)

theorem backendReads_asking (reads : List (List UInt8)) : backendReads (asking reads) = reads := by
  show (reads.map _).filterMap _ = reads
  rw [List.filterMap_map]
  exact List.filterMap_some

theorem wellFormed_rowAnswer {value : List UInt8} (h : value.length < 2 ^ 30) :
    ∀ f ∈ rowAnswer value, WellFormed f := by
  intro f hf
  simp only [rowAnswer, List.mem_cons, List.not_mem_nil, or_false] at hf
  rcases hf with rfl | rfl | rfl
  · refine ⟨?_, fun htag => absurd htag (show msgDataRow ≠ msgReadyForQuery by decide)⟩
    simp only [Frame.len, dataRow, encodeColumn, BigEndian.bytes32, List.flatMap_cons,
      List.flatMap_nil, List.length_append, List.length_cons, List.length_nil]
    omega
  · exact ⟨by decide, fun htag => absurd htag (by decide)⟩
  · exact wellFormed_readyFrame .idle

theorem twinRuns_asking {value₁ value₂ : List UInt8} {reads₁ reads₂ : List (List UInt8)}
    (hlen : value₁.length = value₂.length) (hshort : value₁.length < 2 ^ 30)
    (hlens : reads₁.map List.length = reads₂.map List.length) (hne : ∀ data ∈ reads₁, data ≠ [])
    (hne' : ∀ data ∈ reads₂, data ≠ []) (hflat₁ : reads₁.flatten = encodeAll (rowAnswer value₁))
    (hflat₂ : reads₂.flatten = encodeAll (rowAnswer value₂)) :
    TwinRuns (rowAnswer value₁) (rowAnswer value₂) (asking reads₁) (asking reads₂) where
  rows := .cons (.inr ⟨_, _, by simp [hlen], rfl, rfl⟩) (.cons (.inl rfl) (.cons (.inl rfl) .nil))
  cut₁ := by
    rw [backendReads_asking]
    exact ⟨wellFormed_rowAnswer hshort, hne, hflat₁⟩
  cut₂ := by
    rw [backendReads_asking]
    exact ⟨wellFormed_rowAnswer (hlen ▸ hshort), hne', hflat₂⟩
  arms := by
    rw [← List.forall₂_eq_eq_eq, List.forall₂_map_left_iff, List.forall₂_map_right_iff] at hlens
    refine .cons (.other _) ?_
    rw [List.forall₂_map_left_iff, List.forall₂_map_right_iff]
    exact hlens.imp fun _ _ => .backendRead

/-- An answer read at once: its row does not show. -/
theorem sameErrors_whole_answer :
    publishedErrors ⟨.transaction, 0, 100⟩ redacting selectParser
        (.start ⟨.transaction, 0, 100⟩ ⟨⟨0, none⟩, 0, false⟩)
        (asking [encodeAll (rowAnswer (asciiBytes "alice"))]) =
      publishedErrors ⟨.transaction, 0, 100⟩ redacting selectParser
        (.start ⟨.transaction, 0, 100⟩ ⟨⟨0, none⟩, 0, false⟩)
        (asking [encodeAll (rowAnswer (asciiBytes "bobby"))]) := by
  refine sameErrors_of_boundary (twinRuns_asking (by decide) (by decide) (by decide) (by decide)
    (by decide) (List.append_nil _) (List.append_nil _)) ?_ _ _ _ _
  intro n d₁ d₂ h₁ h₂ hne
  -- there is only one read, and it is the first
  cases n with
  | zero => exact ⟨[], _, rfl, rfl⟩
  | succ n => rw [backendReads_asking] at h₁; exact nomatch h₁

/-- The reads of an answer cut before and behind the value of its row. -/
def cutAroundValue (value : List UInt8) : List (List UInt8) :=
  [(dataRow [some value]).encode.take 11, value, encodeAll (rowAnswer value).tail]

/-- A value with the bytes of an ErrorResponse. -/
def errorLikeValue : List UInt8 := Frame.encode ⟨msgErrorResponse, asciiBytes "Salice" ++ [0, 0]⟩

/-- A row value that looks like an ErrorResponse, at the start of a read: it is published as the
    error of a query that succeeded. -/
theorem row_value_published :
    TwinRuns (rowAnswer errorLikeValue) (rowAnswer (List.replicate 13 120))
        (asking (cutAroundValue errorLikeValue)) (asking (cutAroundValue (List.replicate 13 120))) ∧
      publishedErrors ⟨.transaction, 0, 100⟩ redacting selectParser
        (.start ⟨.transaction, 0, 100⟩ ⟨⟨0, none⟩, 0, false⟩)
        (asking (cutAroundValue errorLikeValue)) = .ok [(some "alice".toList, false)] ∧
      publishedErrors ⟨.transaction, 0, 100⟩ redacting selectParser
        (.start ⟨.transaction, 0, 100⟩ ⟨⟨0, none⟩, 0, false⟩)
        (asking (cutAroundValue (List.replicate 13 120))) = .ok [(none, true)] := by
  refine ⟨twinRuns_asking (by decide) (by decide) (by decide) (by decide) (by decide)
    (by decide) (by decide), by decide +kernel, by decide +kernel⟩

end ScryProxy
