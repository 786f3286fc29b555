import ScryProxy.Native.BackendAuth
import ScryProxy.Spec.ResetOutcome

/-!
# The captured startup response

The reply of a fresh backend to a StartupMessage, in any reads.  `authenticate` collects what
it reads, so the cuts before AuthenticationOk do not matter (`authenticate_returns`).  After
it each read is searched for ReadyForQuery on its own: the capture is the rest of the reply
exactly if the last of these reads is the only one in which the search finds something
(`capturesExactly_iff`), and nothing reaches the client before that.  A backend that ends its
startup with an ErrorResponse is therefore closed on without a word to the client, unless a
read is mistaken for one with a ReadyForQuery (`errorReaches_iff`).
-/

namespace ScryProxy

open Frame (encodeAll)
open BackendAuthenticator (handleRequests)

/-! ## The reply of a backend -/

def msgParameterStatus : UInt8 := 'S'.toUInt8

def msgNoticeResponse : UInt8 := 'N'.toUInt8

def msgBackendKeyData : UInt8 := 'K'.toUInt8

/-- AuthenticationOk. -/
def authOkFrame : Frame := ⟨msgAuthentication, [0, 0, 0, 0]⟩

/-- The authenticator answers a sequence of requests, none of them AuthenticationOk. -/
def BackendAuthenticator.answers (auth : BackendAuthenticator) (s : AuthState) :
    List Frame → Option AuthState
  | [] => some s
  | f :: fs =>
    match AuthRequest.parse .wrapping f.encode with
    | .ok (some req) =>
      if req = .ok then none
      else match auth.respond true s req with
        | .ok s => answers auth s fs
        | .error _ => none
    | _ => none

/-- What is left of the reads after their first `n` bytes. -/
def dropBytes : Nat → List (List UInt8) → List (List UInt8)
  | _, [] => []
  | n, read :: reads =>
    if n < read.length then read.drop n :: reads else dropBytes (n - read.length) reads

/-- The reads behind AuthenticationOk. -/
def afterAuth (fs : List Frame) (reads : List (List UInt8)) : List (List UInt8) :=
  dropBytes (encodeAll (fs ++ [authOkFrame])).length reads

/-- The search finds no ReadyForQuery in a read. -/
def Unseen (chunk : List UInt8) : Prop := extractReadyForQuery .wrapping chunk = .ok none

/-- The search finds one. -/
def Seen (chunk : List UInt8) : Prop :=
  ∃ status, extractReadyForQuery .wrapping chunk = .ok (some status)

/-- It finds one in the last read only. -/
def SeenLast (chunks : List (List UInt8)) : Prop :=
  ∃ before last, chunks = before ++ [last] ∧ (∀ chunk ∈ before, Unseen chunk) ∧ Seen last

/-- The startup returns without further reads, with exactly the messages after AuthenticationOk. -/
def CapturesExactly (auth : BackendAuthenticator) (startupBytes : List UInt8) (reply : List Frame)
    (reads : List (List UInt8)) : Prop :=
  auth.initializeBackendStartup .wrapping true startupBytes (reads.map .data) =
    .ok (.returned (encodeAll reply) [])

/-- ParameterStatus, NoticeResponse and BackendKeyData. -/
def startupTags : List UInt8 := [msgParameterStatus, msgNoticeResponse, msgBackendKeyData]

/-- A read in two parts is like two reads, if the cut is in what is dropped. -/
theorem dropBytes_append {n : Nat} {x : List UInt8} (hx : x.length ≤ n) (y : List UInt8)
    (reads : List (List UInt8)) :
    dropBytes n ((x ++ y) :: reads) = dropBytes (n - x.length) (y :: reads) := by
  simp only [dropBytes, List.length_append]
  by_cases h : n - x.length < y.length
  · rw [if_pos h, if_pos (by omega), List.drop_append, List.drop_eq_nil_of_le hx, List.nil_append]
  · rw [if_neg h, if_neg (by omega), Nat.sub_add_eq]

theorem dropBytes_cons {n : Nat} {x : List UInt8} (hx : x.length ≤ n) (reads : List (List UInt8)) :
    dropBytes n (x :: reads) = dropBytes (n - x.length) reads := by
  rw [dropBytes, if_neg (Nat.not_lt.2 hx)]

theorem dropBytes_zero {reads : List (List UInt8)} (hne : ∀ read ∈ reads, read ≠ []) :
    dropBytes 0 reads = reads := by
  cases reads with
  | nil => rfl
  | cons read reads =>
    have hpos : 0 < read.length := List.length_pos_iff.2 (hne read (List.mem_cons_self ..))
    rw [dropBytes, if_pos hpos, List.drop_zero]

theorem dropBytes_nonempty {n : Nat} {reads : List (List UInt8)} (hne : ∀ read ∈ reads, read ≠ []) :
    ∀ chunk ∈ dropBytes n reads, chunk ≠ [] := by
  induction reads generalizing n with
  | nil => simp [dropBytes]
  | cons read reads ih =>
    have hrest : ∀ read' ∈ reads, read' ≠ [] := fun read' h => hne read' (List.mem_cons_of_mem read h)
    rw [dropBytes]
    split
    · next hlt =>
      intro chunk hchunk
      rcases List.mem_cons.1 hchunk with rfl | hchunk
      · simpa using hlt
      · exact hrest chunk hchunk
    · exact ih hrest

theorem flatten_dropBytes (n : Nat) (reads : List (List UInt8)) :
    (dropBytes n reads).flatten = reads.flatten.drop n := by
  induction reads generalizing n with
  | nil => simp [dropBytes]
  | cons read reads ih =>
    rw [dropBytes]
    split
    · next hlt => rw [List.flatten_cons, List.flatten_cons, List.drop_append_of_le_length hlt.le]
    · next hge =>
      rw [ih, List.flatten_cons, List.drop_append, List.drop_eq_nil_of_le (Nat.not_lt.1 hge),
        List.nil_append]

/-! ## Authentication requests in a stream -/

/-- A message that is taken is an authentication message with a code. -/
theorem AuthRequest.parse_encode {f : Frame} {req : AuthRequest}
    (hparse : AuthRequest.parse .wrapping f.encode = .ok (some req)) :
    f.tag = msgAuthentication ∧ ∃ c₀ c₁ c₂ c₃ rest, f.payload = c₀ :: c₁ :: c₂ :: c₃ :: rest := by
  obtain ⟨tag, payload⟩ := f
  rcases payload with _ | ⟨c₀, _ | ⟨c₁, _ | ⟨c₂, _ | ⟨c₃, payload⟩⟩⟩⟩
  case cons.cons.cons.cons =>
    refine ⟨?_, c₀, c₁, c₂, c₃, payload, rfl⟩
    by_contra htag
    rw [Frame.encode, BigEndian.bytes32] at hparse
    simp only [List.cons_append, List.nil_append, AuthRequest.parse, ne_eq, htag, not_false_eq_true,
      if_true] at hparse
    cases hparse
  all_goals cases hparse

/-- The request at the front is the first message. -/
theorem tryParseAuth_encode {f : Frame} (hshort : f.len < 2 ^ 31) {req : AuthRequest}
    (hparse : AuthRequest.parse .wrapping f.encode = .ok (some req)) (rest : List UInt8) :
    tryParseAuth .wrapping (f.encode ++ rest) = .ok (some (req, f.encode.length)) := by
  obtain ⟨htag, c₀, c₁, c₂, c₃, payload, hpayload⟩ := AuthRequest.parse_encode hparse
  have hlen : f.encode.length = 1 + f.len := by
    rw [Frame.length_encode, Frame.len]
    omega
  have hdata : f.encode ++ rest = msgAuthentication :: UInt8.ofNat (f.len / 2 ^ 24) ::
      UInt8.ofNat (f.len / 2 ^ 16) :: UInt8.ofNat (f.len / 2 ^ 8) :: UInt8.ofNat f.len ::
      c₀ :: c₁ :: c₂ :: c₃ :: (payload ++ rest) := by
    rw [Frame.encode, BigEndian.bytes32, htag, hpayload]
    rfl
  rw [tryParseAuth_header .wrapping hdata (BigEndian.i32_bytes32 hshort), ← hlen, List.take_left, hparse,
    if_neg (by simp)]
  rfl

/-- A request that is not all there is not taken. -/
theorem tryParseAuth_partial {f : Frame} (hshort : f.len < 2 ^ 31) {rest : List UInt8}
    (hrest : rest <+: f.encode) (hlt : rest.length < f.encode.length) :
    tryParseAuth .wrapping rest = .ok none := by
  rcases rest with _ | ⟨t, _ | ⟨b₀, _ | ⟨b₁, _ | ⟨b₂, _ | ⟨b₃, _ | ⟨c₀, _ | ⟨c₁, _ | ⟨c₂, _ |
    ⟨c₃, rest⟩⟩⟩⟩⟩⟩⟩⟩⟩
  case cons.cons.cons.cons.cons.cons.cons.cons.cons =>
    obtain ⟨rfl, hi32, -⟩ := Frame.header_of_front hrest hshort
    by_cases htag : f.tag = msgAuthentication
    · rw [htag] at hlt ⊢
      rw [tryParseAuth_header .wrapping rfl hi32, if_pos]
      rw [Frame.length_encode] at hlt
      rw [Frame.len]
      omega
    · simp [tryParseAuth, htag]
  all_goals rfl

/-! ## The authentication loop -/

namespace BackendAuthenticator

variable {auth : BackendAuthenticator} {s s' : AuthState} {fs : List Frame}

/-- Requests that are answered are taken off the front. -/
theorem handleRequests_answers (hfs : auth.answers s fs = some s') (hshort : ∀ f ∈ fs, f.len < 2 ^ 31)
    (fuel : Nat) (rest : List UInt8) :
    handleRequests .wrapping auth true (fs.length + fuel) (encodeAll fs ++ rest) s =
      handleRequests .wrapping auth true fuel rest s' := by
  induction fs generalizing s with
  | nil =>
    cases hfs
    simp
  | cons f fs ih =>
    simp only [answers] at hfs
    split at hfs
    · next req hparse =>
      split at hfs
      · cases hfs
      · next hreq =>
        split at hfs
        · next s₁ hrespond =>
          have htry := tryParseAuth_encode (hshort f (List.mem_cons_self ..)) hparse
            (encodeAll fs ++ rest)
          rw [List.length_cons, Nat.add_right_comm, Frame.encodeAll_cons, List.append_assoc,
            handleRequests, htry]
          simp only [Rust.ok_bind, List.drop_left, hreq, if_false, hrespond]
          exact ih hfs fun g hg => hshort g (List.mem_cons_of_mem f hg)
        · cases hfs
    · cases hfs

/-- With as much fuel as there are bytes, every answered request is taken. -/
theorem exists_fuel (fs : List Frame) (rest : List UInt8) :
    ∃ fuel, (encodeAll fs ++ rest).length = fs.length + fuel ∧ rest.length ≤ fuel := by
  have hlen := Frame.length_le_encodeAll fs
  rw [List.length_append]
  exact ⟨(encodeAll fs).length - fs.length + rest.length, by omega, by omega⟩

theorem handleRequests_more (hfs : auth.answers s fs = some s') (hshort : ∀ f ∈ fs, f.len < 2 ^ 31)
    {rest : List UInt8} (hstuck : tryParseAuth .wrapping rest = .ok none) :
    handleRequests .wrapping auth true (encodeAll fs ++ rest).length (encodeAll fs ++ rest) s =
      .ok (.more rest s') := by
  obtain ⟨fuel, hfuel, -⟩ := exists_fuel fs rest
  rw [hfuel, handleRequests_answers hfs hshort]
  cases fuel with
  | zero => rfl
  | succ fuel =>
    rw [handleRequests, hstuck]
    rfl

theorem handleRequests_done (hfs : auth.answers s fs = some s') (hshort : ∀ f ∈ fs, f.len < 2 ^ 31)
    (rest : List UInt8) :
    handleRequests .wrapping auth true (encodeAll fs ++ (authOkFrame.encode ++ rest)).length
      (encodeAll fs ++ (authOkFrame.encode ++ rest)) s = .ok (.done rest) := by
  obtain ⟨fuel, hfuel, hlen⟩ := exists_fuel fs (authOkFrame.encode ++ rest)
  obtain ⟨fuel, rfl⟩ : ∃ k, fuel = k + 1 := ⟨fuel - 1, by
    simp only [List.length_append, Frame.length_encode] at hlen
    omega⟩
  have hok : AuthRequest.parse .wrapping authOkFrame.encode = .ok (some .ok) := by decide
  rw [hfuel, handleRequests_answers hfs hshort, handleRequests,
    tryParseAuth_encode (by decide) hok rest]
  simp only [Rust.ok_bind, List.drop_left, if_true]
  rfl

/-- Answered requests may come in two parts. -/
theorem answers_append {gs : List Frame} (h : auth.answers s (fs ++ gs) = some s') :
    ∃ s₁, auth.answers s fs = some s₁ ∧ auth.answers s₁ gs = some s' := by
  induction fs generalizing s with
  | nil => exact ⟨s, rfl, h⟩
  | cons f fs ih =>
    simp only [List.cons_append, answers] at h ⊢
    split at h
    · next req hparse =>
      split at h
      · cases h
      · next hreq =>
        split at h
        · next s₁ hrespond =>
          obtain ⟨s₂, hfs, hgs⟩ := ih h
          exact ⟨s₂, by simp only [hreq, if_false, hfs], hgs⟩
        · cases h
    · cases h

variable {pending : List UInt8}

/-- Part of the requests has come: those that are complete are answered. -/
theorem handleRequests_front (hfs : auth.answers s fs = some s') (hshort : ∀ f ∈ fs, f.len < 2 ^ 31)
    (hpending : pending <+: encodeAll fs) (hlt : pending.length < (encodeAll fs).length) :
    ∃ done todo rest s₁, fs = done ++ todo ∧ pending = encodeAll done ++ rest ∧
      auth.answers s₁ todo = some s' ∧
      handleRequests .wrapping auth true pending.length pending s = .ok (.more rest s₁) := by
  obtain ⟨done, todo, rest, rfl, rfl, hrest⟩ := Frame.prefix_encodeAll hpending
  obtain ⟨s₁, hdone, htodo⟩ := answers_append hfs
  refine ⟨done, todo, rest, s₁, rfl, rfl, htodo, ?_⟩
  cases todo with
  | nil =>
    cases hrest
    simp at hlt
  | cons f todo =>
    refine handleRequests_more hdone (fun g hg => hshort g (List.mem_append_left _ hg)) ?_
    exact tryParseAuth_partial (hshort f (by simp)) hrest.1 hrest.2

/-- Before the message `last` behind the requests can be taken, the loop asks for more; the requests
    that are complete have been answered. -/
theorem handleRequests_waits (hfs : auth.answers s fs = some s') (hshort : ∀ f ∈ fs, f.len < 2 ^ 31)
    {last : List UInt8} (hpending : pending <+: encodeAll fs ++ last)
    (hstuck : ∀ v, pending = encodeAll fs ++ v → v <+: last → tryParseAuth .wrapping v = .ok none) :
    ∃ done todo rest s₁, fs = done ++ todo ∧ pending = encodeAll done ++ rest ∧
      auth.answers s₁ todo = some s' ∧ rest.length ≤ (encodeAll todo).length + last.length ∧
      handleRequests .wrapping auth true pending.length pending s = .ok (.more rest s₁) := by
  rcases Frame.prefix_append_cases hpending with ⟨hpre, hlt⟩ | ⟨v, hsplit, hv⟩
  · obtain ⟨done, todo, rest, s₁, rfl, rfl, htodo, hmore⟩ := handleRequests_front hfs hshort hpre hlt
    refine ⟨done, todo, rest, s₁, rfl, rfl, htodo, ?_, hmore⟩
    rw [Frame.encodeAll_append, List.length_append, List.length_append] at hlt
    omega
  · have hmore := handleRequests_more hfs hshort (hstuck v hsplit hv)
    refine ⟨fs, [], v, s', by simp, hsplit, rfl, ?_, hsplit ▸ hmore⟩
    rw [Frame.encodeAll_nil, List.length_nil, Nat.zero_add]
    exact hv.length_le

section Loop

variable {pending rest bytes : List UInt8} {events : List ReadEvent}

theorem authenticate_data
    (h : handleRequests .wrapping auth true pending.length pending s = .ok (.more rest s')) :
    auth.authenticate .wrapping true (.data bytes :: events) pending s =
      auth.authenticate .wrapping true events (rest ++ bytes) s' := by
  rw [authenticate, h]
  rfl

theorem authenticate_eof
    (h : handleRequests .wrapping auth true pending.length pending s = .ok (.more rest s')) :
    auth.authenticate .wrapping true (.eof :: events) pending s =
      .ok (.failed .closedDuringAuthentication) := by
  rw [authenticate, h]
  rfl

theorem authenticate_done
    (h : handleRequests .wrapping auth true pending.length pending s = .ok (.done rest)) :
    auth.authenticate .wrapping true events pending s = .ok (.returned rest events) := by
  cases events with
  | nil =>
    rw [authenticate, h]
    rfl
  | cons event events =>
    rw [authenticate, h]
    rfl

end Loop

/-- However the reply is cut, `authenticate` returns with the read that completes AuthenticationOk,
    and leaves what came behind it. -/
theorem authenticate_returns (hfs : auth.answers s fs = some s') (hshort : ∀ f ∈ fs, f.len < 2 ^ 31)
    {reply : List UInt8} {reads : List (List UInt8)} (hne : ∀ read ∈ reads, read ≠ [])
    (h : pending ++ reads.flatten = encodeAll fs ++ (authOkFrame.encode ++ reply))
    (tail : List ReadEvent) :
    ∃ remaining later, auth.authenticate .wrapping true (reads.map .data ++ tail) pending s =
        .ok (.returned remaining (later.map .data ++ tail)) ∧
      (if remaining = [] then later else remaining :: later) =
        dropBytes ((encodeAll fs).length + authOkFrame.encode.length) (pending :: reads) := by
  induction reads generalizing pending fs s with
  | nil =>
    simp only [List.flatten_nil, List.append_nil] at h
    subst h
    refine ⟨reply, [], authenticate_done (handleRequests_done hfs hshort reply), ?_⟩
    rw [← List.append_assoc, dropBytes_append (by simp), List.length_append, Nat.sub_self]
    cases reply with
    | nil => rfl
    | cons b reply => rfl
  | cons read reads ih =>
    have hfront : pending <+: encodeAll fs ++ authOkFrame.encode ++ reply :=
      ⟨_, h.trans (List.append_assoc _ _ _).symm⟩
    rcases Frame.prefix_append_cases hfront with ⟨hpre, hlt⟩ | ⟨w, rfl, hw⟩
    · -- AuthenticationOk is not complete, and the next read is needed
      have hstuck : ∀ v, pending = encodeAll fs ++ v → v <+: authOkFrame.encode →
          tryParseAuth .wrapping v = .ok none := by
        rintro v rfl hv
        rw [List.length_append, List.length_append] at hlt
        exact tryParseAuth_partial (f := authOkFrame) (by decide) hv (by omega)
      obtain ⟨done, todo, rest, s₁, rfl, rfl, htodo, hlen, hmore⟩ :=
        handleRequests_waits hfs hshort hpre hstuck
      have hrest : rest ++ read ++ reads.flatten =
          encodeAll todo ++ (authOkFrame.encode ++ reply) := by
        simpa using h
      obtain ⟨remaining, later, hrun, hchunks⟩ :=
        ih htodo (fun f hf => hshort f (List.mem_append_right done hf))
          (fun read' hr => hne read' (List.mem_cons_of_mem read hr)) hrest
      refine ⟨remaining, later, ?_, ?_⟩
      · rw [List.map_cons, List.cons_append, authenticate_data hmore, hrun]
      · have htaken : (encodeAll done ++ rest).length ≤
            (encodeAll (done ++ todo)).length + authOkFrame.encode.length := by
          rw [Frame.encodeAll_append, List.length_append, List.length_append]
          omega
        rw [hchunks, dropBytes_append hlen read reads, dropBytes_cons htaken]
        rw [Frame.encodeAll_append, List.length_append, List.length_append]
        congr 1
        omega
    · rw [List.append_assoc]
      refine ⟨w, read :: reads, authenticate_done (handleRequests_done hfs hshort w), ?_⟩
      rw [← List.append_assoc, dropBytes_append (by simp), List.length_append, Nat.sub_self]
      cases w with
      | nil =>
        rw [if_pos rfl, dropBytes_cons (x := []) (Nat.le_refl 0)]
        exact (dropBytes_zero hne).symm
      | cons b w => rfl

/-- A backend that ends the authentication with another message and closes: the login fails. -/
theorem authenticate_refused (hfs : auth.answers s fs = some s') (hshort : ∀ f ∈ fs, f.len < 2 ^ 31)
    {f : Frame} (hf : f.tag ≠ msgAuthentication) {reads : List (List UInt8)}
    (h : pending ++ reads.flatten = encodeAll fs ++ f.encode) :
    auth.authenticate .wrapping true (reads.map .data ++ [.eof]) pending s =
      .ok (.failed .closedDuringAuthentication) := by
  have hstuck : ∀ v, v <+: f.encode → tryParseAuth .wrapping v = .ok none := by
    intro v hv
    cases v with
    | nil => rfl
    | cons t v =>
      rw [Frame.encode, List.cons_append, List.cons_prefix_cons] at hv
      exact tryParseAuth_other .wrapping (hv.1 ▸ hf) v
  induction reads generalizing pending fs s with
  | nil =>
    simp only [List.flatten_nil, List.append_nil] at h
    subst h
    exact authenticate_eof (handleRequests_more hfs hshort (hstuck _ (List.prefix_refl _)))
  | cons read reads ih =>
    obtain ⟨done, todo, rest, s₁, rfl, rfl, htodo, -, hmore⟩ :=
      handleRequests_waits hfs hshort ⟨_, h⟩ (fun v _ hv => hstuck v hv)
    rw [List.map_cons, List.cons_append, authenticate_data hmore]
    exact ih htodo (fun g hg => hshort g (List.mem_append_right done hg)) (by simpa using h)

end BackendAuthenticator

/-! ## The capture -/

theorem captureLoop_unseen {chunks : List (List UInt8)} (h : ∀ chunk ∈ chunks, Unseen chunk)
    (captured : List UInt8) (tail : List ReadEvent) :
    captureLoop .wrapping captured (chunks.map .data ++ tail) =
      captureLoop .wrapping (captured ++ chunks.flatten) tail := by
  induction chunks generalizing captured with
  | nil => simp
  | cons chunk chunks ih =>
    have hfirst : extractReadyForQuery .wrapping chunk = .ok none := h chunk (List.mem_cons_self ..)
    rw [List.map_cons, List.cons_append, captureLoop, hfirst]
    simp only [Rust.ok_bind, Option.isSome_none, Bool.false_eq_true, if_false]
    rw [ih fun c hc => h c (List.mem_cons_of_mem chunk hc), List.flatten_cons, List.append_assoc]

/-- The capture ends with the first read in which the search finds something. -/
theorem captureLoop_returned_iff {chunks : List (List UInt8)} {captured value : List UInt8}
    {tail rest : List ReadEvent} (htail : tail = [] ∨ tail = [.eof]) :
    captureLoop .wrapping captured (chunks.map .data ++ tail) = .ok (.returned value rest) ↔
      ∃ before chunk after, chunks = before ++ chunk :: after ∧ (∀ c ∈ before, Unseen c) ∧
        Seen chunk ∧ value = captured ++ before.flatten ++ chunk ∧ rest = after.map .data ++ tail := by
  constructor
  · intro h
    induction chunks generalizing captured with
    | nil =>
      rcases htail with rfl | rfl
      · cases h
      · cases h
    | cons chunk chunks ih =>
      rw [List.map_cons, List.cons_append, captureLoop] at h
      obtain ⟨status, hstatus, h⟩ := Rust.bind_returns.1 h
      cases status with
      | some status =>
        cases h
        exact ⟨[], chunk, chunks, rfl, by simp, ⟨status, hstatus⟩, by simp, rfl⟩
      | none =>
        obtain ⟨before, last, after, rfl, hunseen, hseen, rfl, rfl⟩ := ih h
        refine ⟨chunk :: before, last, after, rfl, ?_, hseen, by simp, rfl⟩
        intro c hc
        rcases List.mem_cons.1 hc with rfl | hc
        · exact hstatus
        · exact hunseen c hc
  · rintro ⟨before, chunk, after, rfl, hunseen, ⟨status, hseen⟩, rfl, rfl⟩
    rw [List.map_append, List.append_assoc, captureLoop_unseen hunseen, List.map_cons,
      List.cons_append, captureLoop, hseen]
    rfl

section Startup

variable {auth : BackendAuthenticator} {startupBytes : List UInt8} {fs : List Frame}

variable {reply : List Frame}

/-- After AuthenticationOk the startup is the capture of the reads that are left. -/
theorem initializeBackendStartup_eq {s' : AuthState} {reads : List (List UInt8)}
    (hauth : auth.answers ⟨none, [startupBytes]⟩ fs = some s')
    (hcut : Cut (fs ++ authOkFrame :: reply) reads) (tail : List ReadEvent) :
    auth.initializeBackendStartup .wrapping true startupBytes (reads.map .data ++ tail) =
      captureLoop .wrapping [] ((afterAuth fs reads).map .data ++ tail) := by
  have hshort : ∀ f ∈ fs, f.len < 2 ^ 31 := fun f hf =>
    (hcut.wellFormed f (List.mem_append_left _ hf)).short
  have hstream : [] ++ reads.flatten = encodeAll fs ++ (authOkFrame.encode ++ encodeAll reply) := by
    simp [hcut.flatten]
  obtain ⟨remaining, later, hrun, hchunks⟩ :=
    BackendAuthenticator.authenticate_returns hauth hshort hcut.nonempty hstream tail
  have hafter : (if remaining = [] then later else remaining :: later) = afterAuth fs reads := by
    rw [hchunks, dropBytes_cons (Nat.zero_le _), afterAuth, Frame.encodeAll_append,
      List.length_append]
    simp
  rw [BackendAuthenticator.initializeBackendStartup]
  simp only [Bool.not_true, Bool.false_eq_true, if_false, hrun, Rust.ok_bind]
  rw [← hafter]
  cases remaining with
  | nil => rfl
  | cons b remaining => rfl

theorem flatten_afterAuth {reads : List (List UInt8)}
    (hcut : Cut (fs ++ authOkFrame :: reply) reads) :
    (afterAuth fs reads).flatten = encodeAll reply := by
  have hsplit : encodeAll (fs ++ authOkFrame :: reply) =
      encodeAll (fs ++ [authOkFrame]) ++ encodeAll reply := by simp
  rw [afterAuth, flatten_dropBytes, hcut.flatten, hsplit, List.drop_left]

/-- Whole messages without a ReadyForQuery. -/
theorem unseen_encodeAll {part : List Frame} (hwf : ∀ f ∈ part, WellFormed f)
    (hne : ∀ f ∈ part, f.tag ≠ msgReadyForQuery) : Unseen (encodeAll part) := by
  rw [Unseen, extractReadyForQuery_whole .wrapping hwf, lastReady_of_ne hne]

theorem unseen_of_aligned {chunks : List (List UInt8)} (hwf : ∀ f ∈ reply, WellFormed f)
    (hne : ∀ f ∈ reply, f.tag ≠ msgReadyForQuery) (haligned : Aligned reply chunks) :
    ∀ chunk ∈ chunks, Unseen chunk := by
  obtain ⟨parts, rfl, rfl⟩ := haligned
  intro chunk hchunk
  obtain ⟨part, hpart, rfl⟩ := List.mem_map.1 hchunk
  exact unseen_encodeAll (fun f hf => hwf f (List.mem_flatten.2 ⟨part, hpart, hf⟩))
    fun f hf => hne f (List.mem_flatten.2 ⟨part, hpart, hf⟩)

/-- Cut at message boundaries, only the last read holds a ReadyForQuery. -/
theorem seenLast_of_aligned {body : List Frame} {t : TransactionState} {chunks : List (List UInt8)}
    (hwf : ∀ f ∈ body ++ [readyFrame t], WellFormed f)
    (hne : ∀ f ∈ body, f.tag ≠ msgReadyForQuery) (hchunks : ∀ chunk ∈ chunks, chunk ≠ [])
    (haligned : Aligned (body ++ [readyFrame t]) chunks) : SeenLast chunks := by
  obtain ⟨parts, hparts, rfl⟩ := haligned
  rcases List.eq_nil_or_concat' parts with rfl | ⟨front, last, rfl⟩
  · simp at hparts
  · have hlast : last ≠ [] := by
      rintro rfl
      exact hchunks [] (by simp) rfl
    obtain ⟨init, f, rfl⟩ := (List.eq_nil_or_concat' last).resolve_left hlast
    rw [List.flatten_append, List.flatten_singleton, ← List.append_assoc] at hparts
    obtain ⟨rfl, heq⟩ := List.append_inj' hparts rfl
    cases heq
    refine ⟨front.map encodeAll, encodeAll (init ++ [readyFrame t]), by simp, ?_, ?_⟩
    · exact unseen_of_aligned (fun g hg => hwf g (by simp [hg]))
        (fun g hg => hne g (List.mem_append_left _ hg)) ⟨front, rfl, rfl⟩
    · have hinit : ∀ g ∈ init ++ [readyFrame t], WellFormed g := fun g hg => hwf g (by
        rw [List.append_assoc]
        exact List.mem_append_right _ hg)
      refine ⟨t.status, ?_⟩
      rw [extractReadyForQuery_whole .wrapping hinit, lastReady_append]
      rfl

/-- The capture is the rest of the reply exactly if the search finds something in the last read
    behind AuthenticationOk and in no other.  That is so when these reads are cut at message
    boundaries. -/
theorem capturesExactly_iff {body : List Frame} {t : TransactionState} {reads : List (List UInt8)}
    (hauth : (auth.answers ⟨none, [startupBytes]⟩ fs).isSome = true)
    (hbody : ∀ f ∈ body, f.tag ∈ startupTags)
    (hcut : Cut (fs ++ authOkFrame :: (body ++ [readyFrame t])) reads) :
    (CapturesExactly auth startupBytes (body ++ [readyFrame t]) reads ↔
      SeenLast (afterAuth fs reads)) ∧
    (Aligned (body ++ [readyFrame t]) (afterAuth fs reads) →
      CapturesExactly auth startupBytes (body ++ [readyFrame t]) reads) := by
  obtain ⟨s', hanswers⟩ := Option.isSome_iff_exists.1 hauth
  have hiff : CapturesExactly auth startupBytes (body ++ [readyFrame t]) reads ↔
      SeenLast (afterAuth fs reads) := by
    have hrun := initializeBackendStartup_eq hanswers hcut []
    rw [List.append_nil] at hrun
    rw [CapturesExactly, hrun, captureLoop_returned_iff (.inl rfl), ← flatten_afterAuth hcut]
    constructor
    · rintro ⟨before, last, after, hchunks, hunseen, hseen, -, hrest⟩
      have hafter : after = [] := by simpa using hrest
      exact ⟨before, last, by rw [hchunks, hafter], hunseen, hseen⟩
    · rintro ⟨before, last, hchunks, hunseen, hseen⟩
      exact ⟨before, last, [], hchunks, hunseen, hseen, by simp [hchunks], by simp⟩
  refine ⟨hiff, fun haligned => hiff.2 ?_⟩
  have hne : ∀ f ∈ body, f.tag ≠ msgReadyForQuery := fun f hf htag => by
    have := hbody f hf
    rw [htag] at this
    exact absurd this (by decide)
  have hwf : ∀ f ∈ body ++ [readyFrame t], WellFormed f := fun f hf =>
    hcut.wellFormed f (List.mem_append_right fs (List.mem_cons_of_mem authOkFrame hf))
  exact seenLast_of_aligned hwf hne (dropBytes_nonempty hcut.nonempty) haligned

end Startup

/-- A login with the password `secret`. -/
def secretAuth : BackendAuthenticator :=
  ⟨asciiBytes "secret", id, ⟨[], fun _ _ => none, fun _ _ => false⟩⟩

/-- AuthenticationCleartextPassword. -/
def cleartextFrame : Frame := ⟨msgAuthentication, [0, 0, 0, 3]⟩

theorem wellFormed_of_ne {f : Frame} (hshort : f.len < 2 ^ 31) (htag : f.tag ≠ msgReadyForQuery) :
    WellFormed f := ⟨hshort, fun h => absurd h htag⟩

def timeZoneFrame : Frame := ⟨msgParameterStatus, asciiBytes "TimeZone" ++ [0, 0]⟩

/-- A login with a password, the request cut in its header and ReadyForQuery in a read of its own. -/
theorem captures_cleartext_login :
    CapturesExactly secretAuth [] [timeZoneFrame, readyFrame .idle]
      [cleartextFrame.encode.take 3, cleartextFrame.encode.drop 3 ++ authOkFrame.encode ++
        timeZoneFrame.encode, (readyFrame .idle).encode] := by
  have hauth : (secretAuth.answers ⟨none, [[]]⟩ [cleartextFrame]).isSome = true := by decide
  have hbody : ∀ f ∈ [timeZoneFrame], f.tag ∈ startupTags := by decide
  have hwf : ∀ f ∈ [cleartextFrame] ++ authOkFrame :: ([timeZoneFrame] ++ [readyFrame .idle]),
      WellFormed f := by
    intro f hf
    rcases List.mem_append.1 (show f ∈ [cleartextFrame, authOkFrame, timeZoneFrame] ++
      [readyFrame .idle] from hf) with hf | hf
    · exact wellFormed_of_ne ((by decide : ∀ f ∈ [cleartextFrame, authOkFrame, timeZoneFrame],
        f.len < 2 ^ 31) f hf) ((by decide : ∀ f ∈ [cleartextFrame, authOkFrame, timeZoneFrame],
        f.tag ≠ msgReadyForQuery) f hf)
    · rw [List.mem_singleton.1 hf]
      exact wellFormed_readyFrame .idle
  refine (capturesExactly_iff hauth hbody ⟨hwf, by decide, by decide⟩).1.2 ?_
  exact ⟨[timeZoneFrame.encode], (readyFrame .idle).encode, by decide,
    by unfold Unseen; decide, 'I'.toUInt8, by decide⟩

/-- ReadyForQuery cut before its status: the startup waits for a reply that has been sent. -/
theorem split_ready_waits :
    Cut [authOkFrame, readyFrame .idle]
      [authOkFrame.encode ++ (readyFrame .idle).encode.take 5, (readyFrame .idle).encode.drop 5] ∧
    secretAuth.initializeBackendStartup .wrapping true []
      ([authOkFrame.encode ++ (readyFrame .idle).encode.take 5,
        (readyFrame .idle).encode.drop 5].map .data) = .ok .waiting ∧
    ¬ CapturesExactly secretAuth [] [readyFrame .idle]
      [authOkFrame.encode ++ (readyFrame .idle).encode.take 5, (readyFrame .idle).encode.drop 5] := by
  refine ⟨⟨?_, by decide, by decide⟩, by decide, by unfold CapturesExactly; decide⟩
  intro f hf
  rcases List.mem_cons.1 hf with rfl | hf
  · exact wellFormed_of_ne (by decide) (by decide)
  · rw [List.mem_singleton.1 hf]
    exact wellFormed_readyFrame .idle

/-! ## What reaches the client -/

/-- The bytes an effect writes to the client. -/
def Effect.clientBytes : Effect → List UInt8
  | .toClient bytes => bytes
  | _ => []

/-- A read as the loop of the handler takes it. -/
def ReadEvent.input : ReadEvent → Input
  | .data bytes => .backendRead bytes {} none
  | .eof | .ioError => .backendClosed

/-- What a client with a fresh backend gets before its connection is closed: from the handshake and,
    if that succeeds, from the loop. -/
def clientReceives (cfg : RelayConfig) (conn : ManagedConnection) (auth : BackendAuthenticator)
    (startupBytes : List UInt8) (events : List ReadEvent) : Rust (List UInt8) := do
  match ← performStartupHandshakeCapturing .wrapping auth true startupBytes events with
  | (written, .returned _ rest) =>
    let (effects, _) ← Relay.run cfg (.start cfg conn) (rest.map ReadEvent.input)
    return written ++ effects.flatMap Effect.clientBytes
  -- the error is logged, and the handler is gone
  | (written, _) => return written

/-- The client gets what the backend sent after AuthenticationOk, to the end. -/
def Reaches (cfg : RelayConfig) (conn : ManagedConnection) (auth : BackendAuthenticator)
    (startupBytes : List UInt8) (reply : List Frame) (reads : List (List UInt8)) : Prop :=
  clientReceives cfg conn auth startupBytes (reads.map .data ++ [.eof]) =
    .ok (buildAuthOk ++ encodeAll reply)

/-- The loop passes the reads on to the client. -/
def Relays (cfg : RelayConfig) (conn : ManagedConnection) (reads : List (List UInt8)) : Prop :=
  ∃ effects outcome, Relay.run cfg (.start cfg conn)
      ((reads.map ReadEvent.data ++ [ReadEvent.eof]).map ReadEvent.input) = .ok (effects, outcome) ∧
    effects.flatMap Effect.clientBytes = reads.flatten

section Errors

variable {cfg : RelayConfig} {conn : ManagedConnection} {auth : BackendAuthenticator}
  {startupBytes : List UInt8} {fs : List Frame} {events : List ReadEvent}

/-- A startup that does not succeed sends the client nothing more. -/
theorem clientReceives_failed {result : Awaited (List UInt8)}
    (h : auth.initializeBackendStartup .wrapping true startupBytes events = .ok result)
    (hresult : ∀ captured rest, result ≠ .returned captured rest) :
    clientReceives cfg conn auth startupBytes events = .ok buildAuthOk := by
  rw [clientReceives, performStartupHandshakeCapturing, h]
  cases result with
  | returned captured rest => exact absurd rfl (hresult captured rest)
  | failed e => rfl
  | waiting => rfl

theorem clientReceives_returned {captured : List UInt8} {rest : List ReadEvent}
    (h : auth.initializeBackendStartup .wrapping true startupBytes events =
      .ok (.returned captured rest)) :
    clientReceives cfg conn auth startupBytes events =
      (Relay.run cfg (.start cfg conn) (rest.map ReadEvent.input)).map fun result =>
        buildAuthOk ++ captured ++ result.1.flatMap Effect.clientBytes := by
  rw [clientReceives, performStartupHandshakeCapturing, h]
  cases hrun : Relay.run cfg (.start cfg conn) (rest.map ReadEvent.input) <;>
    simp only [Rust.ok_bind, Rust.pure_eq_ok, hrun] <;> rfl

variable {reads : List (List UInt8)}

/-- An ErrorResponse in place of an authentication request never reaches the client. -/
theorem clientReceives_refused {s' : AuthState} {error : Frame}
    (hauth : auth.answers ⟨none, [startupBytes]⟩ fs = some s')
    (herror : error.tag = msgErrorResponse) (hcut : Cut (fs ++ [error]) reads) :
    clientReceives cfg conn auth startupBytes (reads.map .data ++ [.eof]) = .ok buildAuthOk := by
  have hshort : ∀ f ∈ fs, f.len < 2 ^ 31 := fun f hf =>
    (hcut.wellFormed f (List.mem_append_left _ hf)).short
  have htag : error.tag ≠ msgAuthentication := by
    rw [herror]
    decide
  have hstream : [] ++ reads.flatten = encodeAll fs ++ error.encode := by simp [hcut.flatten]
  have hrefused := BackendAuthenticator.authenticate_refused hauth hshort htag hstream
  have hfailed : auth.initializeBackendStartup .wrapping true startupBytes
      (reads.map .data ++ [.eof]) = .ok (.failed .closedDuringAuthentication) := by
    rw [BackendAuthenticator.initializeBackendStartup, hrefused]
    rfl
  exact clientReceives_failed hfailed (by simp)

/-- Nor does one behind AuthenticationOk, if no read is mistaken for one with a ReadyForQuery. -/
theorem clientReceives_unseen {s' : AuthState} {reply : List Frame}
    (hauth : auth.answers ⟨none, [startupBytes]⟩ fs = some s')
    (hcut : Cut (fs ++ authOkFrame :: reply) reads)
    (hunseen : ∀ chunk ∈ afterAuth fs reads, Unseen chunk) :
    clientReceives cfg conn auth startupBytes (reads.map .data ++ [.eof]) = .ok buildAuthOk := by
  have hfailed : auth.initializeBackendStartup .wrapping true startupBytes
      (reads.map .data ++ [.eof]) = .ok (.failed .closedDuringStartup) := by
    rw [initializeBackendStartup_eq hauth hcut, captureLoop_unseen hunseen]
    rfl
  exact clientReceives_failed hfailed (by simp)

/-- The reply reaches the client exactly if some read is mistaken and the loop passes on the rest. -/
theorem reaches_iff {s' : AuthState} {reply : List Frame} (hreply : encodeAll reply ≠ [])
    (hauth : auth.answers ⟨none, [startupBytes]⟩ fs = some s')
    (hcut : Cut (fs ++ authOkFrame :: reply) reads) :
    Reaches cfg conn auth startupBytes reply reads ↔
      ∃ before chunk after, afterAuth fs reads = before ++ chunk :: after ∧
        (∀ c ∈ before, Unseen c) ∧ Seen chunk ∧ Relays cfg conn after := by
  have hrun := initializeBackendStartup_eq hauth hcut [.eof]
  have hflat := flatten_afterAuth hcut
  -- with the first read in which something is found, the rest is up to the loop
  have hfound : ∀ {before after : List (List UInt8)} {chunk : List UInt8},
      afterAuth fs reads = before ++ chunk :: after → (∀ c ∈ before, Unseen c) → Seen chunk →
      (Reaches cfg conn auth startupBytes reply reads ↔ Relays cfg conn after) := by
    intro before after chunk hchunks hunseen hseen
    have hreturned : captureLoop .wrapping [] ((afterAuth fs reads).map .data ++ [.eof]) =
        .ok (.returned ([] ++ before.flatten ++ chunk) (after.map .data ++ [.eof])) :=
      (captureLoop_returned_iff (.inr rfl)).2
        ⟨before, chunk, after, hchunks, hunseen, hseen, rfl, rfl⟩
    rw [Reaches, clientReceives_returned (hrun.trans hreturned), Rust.map_returns, ← hflat, hchunks]
    simp only [Relays, Prod.exists, List.flatten_append, List.flatten_cons, List.nil_append,
      List.append_assoc, List.append_cancel_left_eq]
  constructor
  · intro hreaches
    cases hcapture : captureLoop .wrapping [] ((afterAuth fs reads).map .data ++ [.eof]) with
    | error failure =>
      rw [Reaches, clientReceives, performStartupHandshakeCapturing, hrun, hcapture] at hreaches
      cases hreaches
    | ok result =>
      cases result with
      | returned value rest =>
        obtain ⟨before, chunk, after, hchunks, hunseen, hseen, -, -⟩ :=
          (captureLoop_returned_iff (.inr rfl)).1 hcapture
        exact ⟨before, chunk, after, hchunks, hunseen, hseen, (hfound hchunks hunseen hseen).1 hreaches⟩
      | failed | waiting =>
        rw [Reaches, clientReceives_failed (hrun.trans hcapture) (by simp), Except.ok.injEq] at hreaches
        exact absurd (List.self_eq_append_right.1 hreaches) hreply
  · rintro ⟨before, chunk, after, hchunks, hunseen, hseen, hrelays⟩
    exact (hfound hchunks hunseen hseen).2 hrelays

/-- A backend that ends its startup with an ErrorResponse and closes.  In place of an authentication
    request the error never reaches the client.  Behind AuthenticationOk it does exactly if a read
    is mistaken for one with a ReadyForQuery and the loop passes on the rest; if no read is, as
    when the reads are cut at message boundaries, the client gets AuthenticationOk and no more. -/
theorem errorReaches_iff {body : List Frame} {error : Frame}
    (hauth : (auth.answers ⟨none, [startupBytes]⟩ fs).isSome = true)
    (hbody : ∀ f ∈ body, f.tag ≠ msgReadyForQuery) (herror : error.tag = msgErrorResponse) :
    (∀ reads, Cut (fs ++ [error]) reads →
      clientReceives cfg conn auth startupBytes (reads.map .data ++ [.eof]) = .ok buildAuthOk) ∧
    ∀ reads, Cut (fs ++ authOkFrame :: (body ++ [error])) reads →
      (Reaches cfg conn auth startupBytes (body ++ [error]) reads ↔
        ∃ before chunk after, afterAuth fs reads = before ++ chunk :: after ∧
          (∀ c ∈ before, Unseen c) ∧ Seen chunk ∧ Relays cfg conn after) ∧
      ((∀ chunk ∈ afterAuth fs reads, Unseen chunk) →
        clientReceives cfg conn auth startupBytes (reads.map .data ++ [.eof]) = .ok buildAuthOk) ∧
      (Aligned (body ++ [error]) (afterAuth fs reads) →
        ∀ chunk ∈ afterAuth fs reads, Unseen chunk) := by
  obtain ⟨s', hanswers⟩ := Option.isSome_iff_exists.1 hauth
  refine ⟨fun reads hcut => clientReceives_refused hanswers herror hcut, fun reads hcut => ?_⟩
  have hreply : encodeAll (body ++ [error]) ≠ [] := by
    simp [Frame.encode_ne_nil]
  have hwf : ∀ f ∈ body ++ [error], WellFormed f := fun f hf =>
    hcut.wellFormed f (List.mem_append_right fs (List.mem_cons_of_mem authOkFrame hf))
  have hne : ∀ f ∈ body ++ [error], f.tag ≠ msgReadyForQuery := by
    intro f hf
    rcases List.mem_append.1 hf with hf | hf
    · exact hbody f hf
    · rw [List.mem_singleton.1 hf, herror]
      decide
  exact ⟨reaches_iff hreply hanswers hcut, clientReceives_unseen hanswers hcut,
    unseen_of_aligned hwf hne⟩

end Errors

/-- FATAL, with the given SQLSTATE and message. -/
def fatalFrame (code message : String) : Frame :=
  ⟨msgErrorResponse, asciiBytes "SFATAL" ++ [0] ++ asciiBytes ("C" ++ code) ++ [0] ++
    asciiBytes ("M" ++ message) ++ [0, 0]⟩

/-- A read that starts with a `Z` of the error text is mistaken, and the error gets through. -/
theorem zebra_error_reaches :
    Reaches ⟨.transaction, 0, 100⟩ ⟨⟨0, none⟩, 7, false⟩ secretAuth [] [fatalFrame "3D000" "no Zebra"]
      [authOkFrame.encode ++ (fatalFrame "3D000" "no Zebra").encode.take 23,
        (fatalFrame "3D000" "no Zebra").encode.drop 23] := by
  have hwf : ∀ f ∈ [] ++ authOkFrame :: ([] ++ [fatalFrame "3D000" "no Zebra"]), WellFormed f := by
    intro f hf
    exact wellFormed_of_ne ((by decide : ∀ f ∈ [authOkFrame, fatalFrame "3D000" "no Zebra"],
      f.len < 2 ^ 31) f hf) ((by decide : ∀ f ∈ [authOkFrame, fatalFrame "3D000" "no Zebra"],
      f.tag ≠ msgReadyForQuery) f hf)
  have hauth : (secretAuth.answers ⟨none, [[]]⟩ []).isSome = true := rfl
  have hbody : ∀ f ∈ ([] : List Frame), f.tag ≠ msgReadyForQuery := by simp
  refine ((errorReaches_iff hauth hbody rfl).2 _ ⟨hwf, by decide, by decide⟩).1.2 ?_
  refine ⟨[(fatalFrame "3D000" "no Zebra").encode.take 23],
    (fatalFrame "3D000" "no Zebra").encode.drop 23, [], by decide, ?_, ⟨0, by decide⟩, ?_⟩
  · unfold Unseen
    decide
  · exact ⟨[], .exit (.release ⟨⟨0, none⟩, 7, false⟩), rfl, rfl⟩

/-- A wrong password, and a database that does not exist: the client gets AuthenticationOk, and its
    connection is closed. -/
theorem startup_error_lost :
    clientReceives ⟨.transaction, 0, 100⟩ ⟨⟨0, none⟩, 7, false⟩ secretAuth []
      [.data cleartextFrame.encode, .data (fatalFrame "28P01" "wrong password").encode, .eof] =
      .ok buildAuthOk ∧
    clientReceives ⟨.transaction, 0, 100⟩ ⟨⟨0, none⟩, 7, false⟩ secretAuth []
      [.data (authOkFrame.encode ++ (fatalFrame "3D000" "no database").encode), .eof] =
      .ok buildAuthOk ∧
    ¬ Reaches ⟨.transaction, 0, 100⟩ ⟨⟨0, none⟩, 7, false⟩ secretAuth []
      [fatalFrame "3D000" "no database"]
      [authOkFrame.encode ++ (fatalFrame "3D000" "no database").encode] := by
  refine ⟨by decide +kernel, by decide +kernel, ?_⟩
  unfold Reaches
  decide +kernel

end ScryProxy
