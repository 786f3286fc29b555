import ScryProxy.Native.AdminConnection

/-!
# Query messages and reads on the admin console

The console looks for a Query at the start of each read only.  A read that starts inside a
message shows no length that fits into the buffer, because the text of a message has no NUL, so
it is never answered.  Hence all messages are answered only if each of them is a read.

The text of a Query goes to the parser with its `;`, which is then part of the last word, or a
word of its own; the parser looks at two words.

## Key results

- `AdminConnection.length_run_le`: no more answers than messages that start in front of a read
- `AdminConnection.request_append_semicolon_iff`: when a `;` does not matter
- `AdminConnection.answers_iff`: exactly when each message gets its answer
-/

namespace ScryProxy

open Rust (Overflow)

/-- A well-formed Query message that is shorter than the buffer. -/
structure AdminQuery where
  body : List UInt8
  noNul : 0 ∉ body
  short : body.length + 6 < 8192

namespace AdminQuery

def frame (m : AdminQuery) : Frame := ⟨msgQuery, m.body ++ [0]⟩

def bytes (m : AdminQuery) : List UInt8 := m.frame.encode

def text (m : AdminQuery) : Str := Utf8.decodeLossy m.body

theorem len_frame (m : AdminQuery) : m.frame.len = m.body.length + 5 := by simp [frame, Frame.len]

theorem length_bytes (m : AdminQuery) : m.bytes.length = m.body.length + 6 := by
  simp [bytes, frame]

theorem bytes_append (m : AdminQuery) (more : List UInt8) :
    m.bytes ++ more = msgQuery :: UInt8.ofNat (m.frame.len / 2 ^ 24) ::
      UInt8.ofNat (m.frame.len / 2 ^ 16) :: UInt8.ofNat (m.frame.len / 2 ^ 8) ::
        UInt8.ofNat m.frame.len :: (m.body ++ 0 :: more) := by
  rw [bytes, Frame.encode_append]
  simp [frame]

end AdminQuery

namespace AdminConnection

variable {ov : Overflow} {waitAnswered : Bool}

/-! ## One read -/

/-- A read that has all of a message in front is answered with its text. -/
theorem queryText_bytes (ov : Overflow) (m : AdminQuery) (more : List UInt8) :
    queryText ov (m.bytes ++ more) = .ok (some m.text) := by
  have hshort := m.short
  have hlen := m.len_frame
  have hlong : m.frame.len + 1 ≤ (m.bytes ++ more).length := by
    rw [List.length_append, m.length_bytes, hlen]
    omega
  have hquery : ((m.bytes ++ more).take m.frame.len).drop 5 = m.body := by
    rw [hlen, m.bytes_append]
    simp
  rw [m.bytes_append] at hlong hquery ⊢
  simp only [queryText, BigEndian.i32_bytes32 (show m.frame.len < 2 ^ 31 by omega),
    Rust.offsetAdd_ofNat, Rust.ok_bind, Rust.usizeSub_of_le ov (show 4 ≤ 5 + m.frame.len by omega)]
  rw [if_neg (by omega), Rust.usizeSub_of_le ov (by omega), Rust.ok_bind,
    show 5 + m.frame.len - 4 - 1 = m.frame.len by omega, if_neg (by simp only [bufferSize]; omega), hquery]
  rfl

variable {m : AdminQuery}

/-- A read that has only a part of it is not answered. -/
theorem queryText_part {r : List UInt8} (h : r <+: m.bytes) (hlt : r.length < m.bytes.length) :
    queryText ov r = .ok none := by
  have hshort := m.short
  have hlen := m.len_frame
  rw [m.length_bytes] at hlt
  unfold queryText
  split
  · next t b₀ b₁ b₂ b₃ rest =>
    obtain ⟨-, hlength, -⟩ := Frame.header_of_front h (by omega)
    rw [hlength, Rust.offsetAdd_ofNat, Rust.ok_bind,
      Rust.usizeSub_of_le ov (show 4 ≤ 5 + m.frame.len by omega), Rust.ok_bind, if_pos (by omega)]
    rfl
  · rfl

variable {rest : List UInt8}

/-- A length that does not fit into the buffer is not answered; a negative one may panic. -/
theorem queryText_ne_some {t b₀ b₁ b₂ b₃ : UInt8}
    (hlen : (t :: b₀ :: b₁ :: b₂ :: b₃ :: rest).length ≤ 8192)
    (hlarge : 8192 ≤ BigEndian.u32 b₀ b₁ b₂ b₃) (q : Str) :
    queryText ov (t :: b₀ :: b₁ :: b₂ :: b₃ :: rest) ≠ .ok (some q) := by
  have hlow := BigEndian.neg_le_i32 b₀ b₁ b₂ b₃
  have hhigh := BigEndian.u32_lt b₀ b₁ b₂ b₃
  have hcases : BigEndian.i32 b₀ b₁ b₂ b₃ < 0 ∨ 8192 ≤ BigEndian.i32 b₀ b₁ b₂ b₃ := by
    unfold BigEndian.i32
    split <;> omega
  intro h
  rw [queryText] at h
  obtain ⟨sum, hsum, h⟩ := Rust.bind_returns.1 h
  obtain ⟨messageEnd, hend, h⟩ := Rust.bind_returns.1 h
  have hsum := Rust.offsetAdd_returns hsum
  have hend := Rust.usizeSub_returns hend
  split at h
  · cases h
  · -- only `5 - 1` wraps to an end within the read, and then the query ends before it starts
    have hzero : messageEnd = 0 := by omega
    obtain ⟨queryEnd, hquery, h⟩ := Rust.bind_returns.1 h
    have hquery := Rust.usizeSub_returns hquery
    rw [if_pos (by simp only [bufferSize]; omega)] at h
    cases h

/-! ## Where a read starts -/

/-- The bytes of a sequence of messages. -/
def stream (ms : List AdminQuery) : List UInt8 := ms.flatMap AdminQuery.bytes

@[simp] theorem stream_cons (m : AdminQuery) (ms : List AdminQuery) :
    stream (m :: ms) = m.bytes ++ stream ms := rfl

/-- What is left of a message whose first bytes have been read, or nothing. -/
def Inside (tail : List UInt8) : Prop :=
  tail = [] ∨ ∃ (m : AdminQuery) (front : List UInt8), front ≠ [] ∧ front ++ tail = m.bytes

theorem msgQuery_ne_ofNat {n : Nat} (h : n < 81) : msgQuery ≠ UInt8.ofNat n := by
  intro heq
  have hbyte : 81 = n % 2 ^ 8 := congrArg UInt8.toNat heq
  omega

variable {front : List UInt8}

/-- A byte `Q` inside a message is one of the text or the last one of the length; after it comes a
    byte of the text, or the NUL alone. -/
theorem query_inside (hfront : front ≠ []) (h : front ++ msgQuery :: rest = m.bytes) :
    (∃ c ∈ m.body, ∃ more, rest = c :: more) ∨ rest = [0] := by
  have hshort := m.short
  have hlen := m.len_frame
  have hbytes := m.bytes_append []
  rw [List.append_nil, ← h] at hbytes
  rcases front with _ | ⟨a, _ | ⟨b, _ | ⟨c, _ | ⟨d, _ | ⟨e, front⟩⟩⟩⟩⟩
  · exact absurd rfl hfront
  -- the first three bytes of the length are too small
  · simp only [List.cons_append, List.nil_append, List.cons.injEq] at hbytes
    exact absurd hbytes.2.1 (msgQuery_ne_ofNat (by omega))
  · simp only [List.cons_append, List.nil_append, List.cons.injEq] at hbytes
    exact absurd hbytes.2.2.1 (msgQuery_ne_ofNat (by omega))
  · simp only [List.cons_append, List.nil_append, List.cons.injEq] at hbytes
    exact absurd hbytes.2.2.2.1 (msgQuery_ne_ofNat (by omega))
  · -- with such a length the text has 76 bytes or more
    simp only [List.cons_append, List.nil_append, List.cons.injEq] at hbytes
    have hbyte : 81 = m.frame.len % 2 ^ 8 := congrArg UInt8.toNat hbytes.2.2.2.2.1
    cases hbody : m.body with
    | nil =>
      rw [hbody, List.length_nil] at hlen
      omega
    | cons c body =>
      rw [hbody] at hbytes
      exact .inl ⟨c, List.mem_cons_self, _, hbytes.2.2.2.2.2⟩
  · simp only [List.cons_append, List.cons.injEq] at hbytes
    have hsame := hbytes.2.2.2.2.2
    have hsize := congrArg List.length hsame
    simp only [List.length_append, List.length_cons, List.length_nil] at hsize
    obtain ⟨text, hbody⟩ : front <+: m.body :=
      List.prefix_of_prefix_length_le ⟨_, hsame⟩ ⟨[0], rfl⟩ (by omega)
    rw [← hbody, List.append_assoc] at hsame
    have htext := List.append_cancel_left hsame
    rcases text with _ | ⟨c, _ | ⟨d, text⟩⟩
    · exact absurd (List.cons.inj htext).1 (by decide)
    · exact .inr (List.cons.inj htext).2
    · refine .inl ⟨d, ?_, _, (List.cons.inj htext).2⟩
      rw [← hbody]
      simp

variable {tail : List UInt8} {ms : List AdminQuery}

/-- Where a read starts with a `Q` inside a message, it shows four bytes that are too large for a
    length: they start with a byte of the text, or with the NUL and the `Q` of the next message. -/
theorem large_of_inside (hfront : front ≠ []) (htail : tail ≠ []) (h : front ++ tail = m.bytes)
    {b₀ b₁ b₂ b₃ : UInt8} (hread : msgQuery :: b₀ :: b₁ :: b₂ :: b₃ :: rest <+: tail ++ stream ms) :
    8192 ≤ BigEndian.u32 b₀ b₁ b₂ b₃ := by
  obtain ⟨first, tail, rfl⟩ := List.exists_cons_of_ne_nil htail
  rw [List.cons_append, List.cons_prefix_cons] at hread
  obtain ⟨rfl, hread⟩ := hread
  rcases query_inside hfront h with ⟨c, hc, more, rfl⟩ | rfl
  · have hne : c.toNat ≠ 0 := by
      intro hzero
      have hnul : c = 0 := UInt8.toNat_inj.1 hzero
      exact m.noNul (hnul ▸ hc)
    rw [List.cons_append, List.cons_prefix_cons] at hread
    rw [hread.1, BigEndian.u32]
    omega
  · simp only [List.cons_append, List.nil_append, List.cons_prefix_cons] at hread
    cases ms with
    | nil => simp [stream] at hread
    | cons next ms =>
      rw [stream_cons, next.bytes_append, List.cons_prefix_cons] at hread
      have hq : msgQuery.toNat = 81 := rfl
      rw [hread.2.1, BigEndian.u32, hq]
      omega

/-- A read that starts inside a message is not answered. -/
theorem queryText_inside (hfront : front ≠ []) (htail : tail ≠ []) (h : front ++ tail = m.bytes)
    {data : List UInt8} (hread : msgQuery :: data <+: tail ++ stream ms)
    (hlen : (msgQuery :: data).length ≤ 8192) (q : Str) :
    queryText ov (msgQuery :: data) ≠ .ok (some q) := by
  rcases data with _ | ⟨b₀, _ | ⟨b₁, _ | ⟨b₂, _ | ⟨b₃, rest⟩⟩⟩⟩
  · simp [queryText]
  · simp [queryText]
  · simp [queryText]
  · simp [queryText]
  · exact queryText_ne_some hlen (large_of_inside hfront htail h hread) q

/-- What follows the first bytes of a stream: the rest of a message, and messages. -/
theorem stream_rest {more : List UInt8} (h : front ++ more = stream ms) :
    ∃ tail ms', more = tail ++ stream ms' ∧ Inside tail ∧ ms'.length ≤ ms.length ∧
      (front ≠ [] → ms'.length < ms.length) := by
  induction ms generalizing front with
  | nil =>
    obtain ⟨rfl, rfl⟩ := List.append_eq_nil_iff.1 h
    exact ⟨[], [], rfl, .inl rfl, Nat.le_refl _, fun hne => absurd rfl hne⟩
  | cons m ms ih =>
    rw [stream_cons] at h
    -- the first bytes end within the first message, or behind it
    rcases Frame.prefix_append_cases ⟨more, h⟩ with ⟨⟨tail, htail⟩, -⟩ | ⟨front, rfl, -⟩
    · by_cases hne : front = []
      · subst hne
        exact ⟨[], m :: ms, h, .inl rfl, Nat.le_refl _, fun hne => absurd rfl hne⟩
      · rw [← htail, List.append_assoc] at h
        exact ⟨tail, ms, List.append_cancel_left h, .inr ⟨m, front, hne, htail⟩, Nat.le_succ _,
          fun _ => Nat.lt_succ_self _⟩
    · rw [List.append_assoc] at h
      obtain ⟨tail, ms', hmore, htail, hle, -⟩ := ih (List.append_cancel_left h)
      exact ⟨tail, ms', hmore, htail, Nat.le_succ_of_le hle, fun _ => Nat.lt_succ_of_le hle⟩

/-- The same for a stream of which a part of a message has been read already. -/
theorem inside_rest {r more : List UInt8} (htail : Inside tail) (h : r ++ more = tail ++ stream ms) :
    ∃ tail' ms', more = tail' ++ stream ms' ∧ Inside tail' ∧ ms'.length ≤ ms.length ∧
      (tail = [] → r ≠ [] → ms'.length < ms.length) := by
  by_cases hempty : tail = []
  · subst hempty
    obtain ⟨tail', ms', hmore, htail', hle, hlt⟩ := stream_rest h
    exact ⟨tail', ms', hmore, htail', hle, fun _ => hlt⟩
  · rcases Frame.prefix_append_cases ⟨more, h⟩ with ⟨⟨tail', rfl⟩, -⟩ | ⟨front, rfl, -⟩
    · obtain ⟨m, front, hfront, hbytes⟩ := htail.resolve_left hempty
      rw [List.append_assoc] at h
      refine ⟨tail', ms, List.append_cancel_left h, .inr ⟨m, front ++ r, ?_, ?_⟩, Nat.le_refl _,
        fun hnil => absurd hnil hempty⟩
      · exact fun hnil => hfront (List.append_eq_nil_iff.1 hnil).1
      · rw [List.append_assoc, hbytes]
    · rw [List.append_assoc] at h
      obtain ⟨tail', ms', hmore, htail', hle, -⟩ := stream_rest (List.append_cancel_left h)
      exact ⟨tail', ms', hmore, htail', hle, fun hnil => absurd hnil hempty⟩

/-! ## All reads -/

/-- The reads of a stream: none is empty, and each fits into the buffer. -/
def Reads (reads : List (List UInt8)) : Prop := ∀ r ∈ reads, r ≠ [] ∧ r.length ≤ 8192

/-- Every answer is to a message that starts with a read. -/
theorem length_run_le {reads : List (List UInt8)} (hreads : Reads reads) (htail : Inside tail)
    (h : reads.flatten = tail ++ stream ms) {qs : List Str}
    (hrun : run ov waitAnswered reads = .ok qs) : qs.length ≤ ms.length := by
  induction reads generalizing tail ms qs with
  | nil =>
    cases hrun
    exact Nat.zero_le _
  | cons r reads ih =>
    obtain ⟨⟨hne, hlen⟩, hlater⟩ := List.forall_mem_cons.1 hreads
    obtain ⟨tail', ms', hmore, htail', hle, hlt⟩ := inside_rest htail h
    cases r with
    | nil => exact absurd rfl hne
    | cons tag data =>
      rw [run] at hrun
      split at hrun
      · next htag =>
        subst htag
        obtain ⟨query, hquery, hrun⟩ := Rust.bind_returns.1 hrun
        cases query with
        | none => exact (ih hlater htail' hmore hrun).trans hle
        | some q =>
          simp only at hrun
          split at hrun
          · cases hrun
            exact Nat.zero_le _
          obtain ⟨queries, hqueries, hrun⟩ := Rust.bind_returns.1 hrun
          cases hrun
          have hrest := ih hlater htail' hmore hqueries
          -- the read starts with a message
          have hempty : tail = [] := by
            by_contra hempty
            obtain ⟨m, front, hfront, hbytes⟩ := htail.resolve_left hempty
            exact queryText_inside hfront hempty hbytes ⟨_, h⟩ hlen q hquery
          have hless := hlt hempty hne
          rw [List.length_cons]
          omega
      · split at hrun
        · cases hrun
          exact Nat.zero_le _
        · exact (ih hlater htail' hmore hrun).trans hle

theorem run_bytes_append (ov : Overflow) (waitAnswered : Bool) (m : AdminQuery) (more : List UInt8)
    (reads : List (List UInt8)) :
    run ov waitAnswered ((m.bytes ++ more) :: reads) =
      if blocks waitAnswered m.text then .ok []
      else (run ov waitAnswered reads).map (m.text :: ·) := by
  have hquery := queryText_bytes ov m more
  rw [m.bytes_append] at hquery ⊢
  rw [run, if_pos rfl, hquery, Rust.ok_bind]
  simp only
  split
  · rfl
  · cases run ov waitAnswered reads <;> rfl

theorem run_part {r : List UInt8} (hne : r ≠ []) (h : r <+: m.bytes)
    (hlt : r.length < m.bytes.length) (reads : List (List UInt8)) :
    run ov waitAnswered (r :: reads) = run ov waitAnswered reads := by
  cases r with
  | nil => exact absurd rfl hne
  | cons tag data =>
    obtain ⟨tail, htail⟩ := h
    have hbytes := m.bytes_append []
    rw [List.append_nil, ← htail, List.cons_append, List.cons.injEq] at hbytes
    rw [run, if_pos hbytes.1, queryText_part ⟨tail, htail⟩ hlt, Rust.ok_bind]

/-- If all messages are answered, each of them is a read. -/
theorem reads_of_length_run {reads : List (List UInt8)} (hreads : Reads reads)
    (h : reads.flatten = stream ms) {qs : List Str} (hrun : run ov waitAnswered reads = .ok qs)
    (hall : ms.length ≤ qs.length) : reads = ms.map AdminQuery.bytes := by
  induction reads generalizing ms qs with
  | nil =>
    cases ms with
    | nil => rfl
    | cons m ms =>
      rw [stream_cons, m.bytes_append] at h
      cases h
  | cons r reads ih =>
    obtain ⟨⟨hne, hlen⟩, hlater⟩ := List.forall_mem_cons.1 hreads
    cases ms with
    | nil => exact absurd (List.append_eq_nil_iff.1 h).1 hne
    | cons m ms =>
      rw [List.flatten_cons, stream_cons] at h
      rw [List.length_cons] at hall
      rcases Frame.prefix_append_cases ⟨_, h⟩ with ⟨hpart, hshort⟩ | ⟨more, rfl, -⟩
      · -- the first message is not answered
        rw [run_part hne hpart hshort] at hrun
        obtain ⟨tail, htail⟩ := hpart
        rw [← htail, List.append_assoc] at h
        have hle := length_run_le hlater (.inr ⟨m, r, hne, htail⟩) (List.append_cancel_left h) hrun
        omega
      · rw [List.append_assoc] at h
        have hrest := List.append_cancel_left h
        rw [run_bytes_append] at hrun
        split at hrun
        · cases hrun
          exact absurd hall (Nat.not_succ_le_zero _)
        obtain ⟨queries, hqueries, rfl⟩ := Rust.map_returns.1 hrun
        rw [List.length_cons] at hall
        obtain ⟨tail, ms', hmore, htail, -, hlt⟩ := stream_rest hrest
        have hle := length_run_le hlater htail hmore hqueries
        -- a read that goes on hides the start of the next message
        have hnil : more = [] := by
          by_contra hmore
          have hless := hlt hmore
          omega
        subst hnil
        rw [List.append_nil, List.map_cons, ih hlater hrest hqueries (by omega)]

/-- One message a read: all are answered exactly if none makes the console wait. -/
theorem run_map_bytes (ov : Overflow) (waitAnswered : Bool) (ms : List AdminQuery) :
    ∃ qs, run ov waitAnswered (ms.map AdminQuery.bytes) = .ok qs ∧
      (ms.length ≤ qs.length ↔ ∀ m ∈ ms, blocks waitAnswered m.text = false) ∧
      ((∀ m ∈ ms, blocks waitAnswered m.text = false) → qs = ms.map AdminQuery.text) := by
  induction ms with
  | nil => exact ⟨[], rfl, by simp, fun _ => rfl⟩
  | cons m ms ih =>
    obtain ⟨qs, hrun, hlength, htexts⟩ := ih
    have hfirst := run_bytes_append ov waitAnswered m [] (ms.map AdminQuery.bytes)
    rw [List.append_nil] at hfirst
    rw [List.map_cons, hfirst]
    cases hblocks : blocks waitAnswered m.text with
    | true => exact ⟨[], rfl, by simp [hblocks], by simp [hblocks]⟩
    | false =>
      refine ⟨m.text :: qs, by rw [hrun]; rfl, ?_, fun hnone => ?_⟩
      · simp [hblocks, hlength]
      · rw [List.map_cons, htexts fun m hm => hnone m (List.mem_cons_of_mem _ hm)]

/-! ## The semicolon -/

/-- The words that the parser sees before the word that ends with the text, and that word. -/
def wordsBefore (sql : Str) : List Str :=
  Str.splitWhitespace (sql.toUppercase.rdropWhile fun c => !Str.isWhitespace c)

def lastWord (sql : Str) : Str := sql.toUppercase.rtakeWhile fun c => !Str.isWhitespace c

/-- A last word that is empty is none. -/
def argumentsOf (last : Str) : List Str := if last = [] then [] else [last]

theorem parse_eq (sql : Str) :
    AdminCommand.parse sql = AdminCommand.ofWords
      (wordsBefore sql ++ argumentsOf (lastWord sql)) := by
  have hupper := List.rdropWhile_append_rtakeWhile (p := fun c => !Str.isWhitespace c)
    (l := sql.toUppercase)
  have hlast := List.rdropWhile_last_not (fun c => !Str.isWhitespace c) sql.toUppercase
  rw [AdminCommand.parse, Str.splitWhitespace_toUppercase_trim, Str.splitWhitespace]
  conv_lhs => rw [← hupper]
  rw [Str.words_append_of_getLast fun hne => by simpa using hlast hne,
    Str.words_of_forall (s := List.rtakeWhile _ _) fun c hc => List.mem_rtakeWhile_imp hc]
  rfl

/-- The `;` joins the last word. -/
theorem parse_semicolon (sql : Str) :
    AdminCommand.parse (sql ++ [';']) =
      AdminCommand.ofWords (wordsBefore sql ++ [lastWord sql ++ [';']]) := by
  have hupper : Str.toUppercase (sql ++ [';']) = sql.toUppercase ++ [';'] :=
    Str.toUppercase_append sql [';']
  rw [parse_eq, wordsBefore, lastWord, hupper, List.rdropWhile_concat_pos _ _ _ (by decide),
    List.rtakeWhile_concat_pos _ _ _ (by decide)]
  simp [argumentsOf, wordsBefore, lastWord]

/-- Two texts give one request only as one command; an error shows the text. -/
theorem request_eq_iff {sql sql' : Str} (hne : sql ≠ sql') :
    AdminCommand.request sql = AdminCommand.request sql' ↔
      ∃ cmd, AdminCommand.parse sql = some cmd ∧ AdminCommand.parse sql' = some cmd := by
  unfold AdminCommand.request
  cases AdminCommand.parse sql with
  | none =>
    cases AdminCommand.parse sql' with
    | none => simp [hne]
    | some cmd => simp
  | some cmd =>
    cases AdminCommand.parse sql' with
    | none => simp
    | some cmd' => simp [eq_comm]

def commands : List Str :=
  ["SHOW".toList, "PAUSE".toList, "RESUME".toList, "RELOAD".toList, "SHUTDOWN".toList, "KILL".toList]

/-- The reports that `SHOW` knows. -/
def reports : List Str :=
  ["POOLS".toList, "STATS".toList, "STATS_TOTALS".toList, "STATS_AVERAGES".toList,
    "DATABASES".toList, "CLIENTS".toList, "SERVERS".toList, "VERSION".toList, "CONFIG".toList]

/-- Two words that make a command, whatever follows. -/
def IsCommand (command argument : Str) : Prop :=
  command ∈ commands ∧ (command = "SHOW".toList → argument ∈ reports)

theorem mem_commands {command : Str} : command ∈ commands ↔
    command = "SHOW".toList ∨ command = "PAUSE".toList ∨ command = "RESUME".toList ∨
      command = "RELOAD".toList ∨ command = "SHUTDOWN".toList ∨ command = "KILL".toList := by
  simp only [commands, List.mem_cons, List.not_mem_nil, or_false]

theorem parseShow_isSome (keyword : Str) :
    (∃ cmd, AdminCommand.parseShow keyword = some cmd) ↔ keyword ∈ reports := by
  simp only [reports, List.mem_cons, List.not_mem_nil, or_false]
  constructor
  · rintro ⟨cmd, h⟩
    by_contra hnone
    simp only [not_or] at hnone
    obtain ⟨h₁, h₂, h₃, h₄, h₅, h₆, h₇, h₈, h₉⟩ := hnone
    rw [AdminCommand.parseShow, if_neg h₁, if_neg (by simp only [h₂, h₃, h₄, or_self, not_false_eq_true]),
      if_neg h₅, if_neg h₆, if_neg h₇, if_neg h₈, if_neg h₉] at h
    cases h
  · rintro (rfl | rfl | rfl | rfl | rfl | rfl | rfl | rfl | rfl) <;> exact ⟨_, rfl⟩

theorem ofWords_other {command : Str} (h : command ∉ commands) (arguments : List Str) :
    AdminCommand.ofWords (command :: arguments) = none := by
  simp only [mem_commands, not_or] at h
  obtain ⟨h₁, h₂, h₃, h₄, h₅, h₆⟩ := h
  simp only [AdminCommand.ofWords]
  rw [if_neg h₁, if_neg h₂, if_neg h₃, if_neg h₄, if_neg h₅, if_neg h₆]

theorem ofWords_isCommand (command argument : Str) (rest : List Str) :
    (∃ cmd, AdminCommand.ofWords (command :: argument :: rest) = some cmd) ↔
      IsCommand command argument := by
  by_cases hmem : command ∈ commands
  · unfold IsCommand
    simp only [hmem, true_and]
    rcases mem_commands.1 hmem with rfl | rfl | rfl | rfl | rfl | rfl
    · simp only [true_implies]
      exact parseShow_isSome argument
    all_goals exact iff_of_true ⟨_, rfl⟩ fun hshow => absurd hshow (by decide)
  · rw [ofWords_other hmem]
    exact iff_of_false (by rintro ⟨cmd, h⟩; cases h) fun h => hmem h.1

/-- A `;` behind the text does not matter: the parser does not look at the word it joins. -/
def SemicolonHarmless (sql : Str) : Prop :=
  (∃ command argument rest, wordsBefore sql = command :: argument :: rest ∧
      IsCommand command argument) ∨
    wordsBefore sql = ["RELOAD".toList] ∨
    (wordsBefore sql = ["SHUTDOWN".toList] ∧ lastWord sql ≠ "WAIT".toList)

theorem append_semicolon_ne (word : Str) {keyword : Str} (h : keyword.getLast? ≠ some ';') :
    word ++ [';'] ≠ keyword := by
  rintro rfl
  simp at h

theorem ofWords_semicolon (word : Str) : AdminCommand.ofWords [word ++ [';']] = none := by
  have hends : ∀ command ∈ commands, command.getLast? ≠ some ';' := by decide
  exact ofWords_other (fun hmem => append_semicolon_ne word (hends _ hmem) rfl) []

theorem parseShow_semicolon (word : Str) : AdminCommand.parseShow (word ++ [';']) = none := by
  have hends : ∀ keyword ∈ reports, keyword.getLast? ≠ some ';' := by decide
  cases hshow : AdminCommand.parseShow (word ++ [';']) with
  | none => rfl
  | some cmd =>
    have hmem := (parseShow_isSome (word ++ [';'])).1 ⟨cmd, hshow⟩
    exact absurd rfl (append_semicolon_ne word (hends _ hmem))

/-- A name with a `;` is another name. -/
theorem toLowercase_semicolon_ne (word : Str) :
    Str.toLowercase (word ++ [';']) ≠ Str.toLowercase word := by
  intro h
  have hlength := Str.length_toLowercaseAfter_concat [] [] word ';' (by decide)
  rw [show Str.toLowercaseAfter [] (word ++ [';']) = Str.toLowercaseAfter [] word from h] at hlength
  have hone : (UnicodeCase.charToLowercase ';').length = 1 := by decide +kernel
  omega

theorem database_semicolon_ne (last : Str) :
    (argumentsOf last).head?.map Str.toLowercase ≠ some (Str.toLowercase (last ++ [';'])) := by
  unfold argumentsOf
  split
  · simp
  · simpa using (toLowercase_semicolon_ne last).symm

theorem any_wait_argumentsOf (last : Str) :
    (argumentsOf last).head?.any (· = "WAIT".toList) = true ↔ last = "WAIT".toList := by
  unfold argumentsOf
  split
  · next hempty =>
    subst hempty
    decide
  · simp only [List.head?_cons, Option.any_some, decide_eq_true_eq]

/-- With one word before it, the `;` is in the argument. -/
theorem ofWords_argument_iff (command last : Str) :
    (∃ cmd, AdminCommand.ofWords [command, last ++ [';']] = some cmd ∧
      AdminCommand.ofWords (command :: argumentsOf last) = some cmd) ↔
      command = "RELOAD".toList ∨ (command = "SHUTDOWN".toList ∧ last ≠ "WAIT".toList) := by
  have hname := database_semicolon_ne last
  have hother : ∀ word : Str, word ≠ "RELOAD".toList → word ≠ "SHUTDOWN".toList →
      ¬ (word = "RELOAD".toList ∨ (word = "SHUTDOWN".toList ∧ last ≠ "WAIT".toList)) :=
    fun word hreload hshutdown h => h.elim hreload fun hand => hshutdown hand.1
  by_cases hmem : command ∈ commands
  · rcases mem_commands.1 hmem with rfl | rfl | rfl | rfl | rfl | rfl
    · refine iff_of_false ?_ (hother _ (by decide) (by decide))
      rintro ⟨cmd, h, -⟩
      have hshow : AdminCommand.parseShow (last ++ [';']) = some cmd := h
      rw [parseShow_semicolon] at hshow
      cases hshow
    · refine iff_of_false ?_ (hother _ (by decide) (by decide))
      rintro ⟨cmd, h, h'⟩
      exact hname (AdminCommand.pause.inj (Option.some.inj (h'.trans h.symm)))
    · refine iff_of_false ?_ (hother _ (by decide) (by decide))
      rintro ⟨cmd, h, h'⟩
      exact hname (AdminCommand.resume.inj (Option.some.inj (h'.trans h.symm)))
    · exact iff_of_true ⟨_, rfl, rfl⟩ (.inl rfl)
    · -- only `WAIT` is looked for, and the word with the `;` is not it
      have hsemicolon : AdminCommand.ofWords ["SHUTDOWN".toList, last ++ [';']] =
          some (.shutdown false) :=
        congrArg (some ∘ AdminCommand.shutdown)
          (decide_eq_false (append_semicolon_ne last (by decide)))
      have hplain : AdminCommand.ofWords ("SHUTDOWN".toList :: argumentsOf last) =
          some (.shutdown ((argumentsOf last).head?.any (· = "WAIT".toList))) := rfl
      have hreload : "SHUTDOWN".toList ≠ "RELOAD".toList := by decide
      have hwait := not_congr (any_wait_argumentsOf last)
      rw [Bool.not_eq_true] at hwait
      rw [hsemicolon, hplain]
      simp only [Option.some.injEq, exists_eq_left', AdminCommand.shutdown.injEq, hreload, false_or,
        true_and, ne_eq]
      exact hwait
    · refine iff_of_false ?_ (hother _ (by decide) (by decide))
      rintro ⟨cmd, h, h'⟩
      exact hname (AdminCommand.kill.inj (Option.some.inj (h'.trans h.symm)))
  · rw [ofWords_other hmem]
    refine iff_of_false (by rintro ⟨cmd, h, -⟩; cases h) ?_
    rintro (rfl | ⟨rfl, -⟩) <;> exact hmem (by decide)

theorem request_append_semicolon_iff (sql : Str) :
    AdminCommand.request (sql ++ [';']) = AdminCommand.request sql ↔ SemicolonHarmless sql := by
  rw [request_eq_iff (by simp), parse_semicolon, parse_eq]
  cases hbefore : wordsBefore sql with
  | nil => simp [SemicolonHarmless, hbefore, ofWords_semicolon]
  | cons command before =>
    cases before with
    | nil =>
      simp only [List.singleton_append, ofWords_argument_iff, SemicolonHarmless, hbefore]
      simp
    | cons argument rest =>
      -- the third word is not looked at
      have hsame : ∀ more, AdminCommand.ofWords (command :: argument :: more) =
          AdminCommand.ofWords (command :: argument :: rest) := fun _ => rfl
      simp only [List.cons_append, hsame (rest ++ _), and_self, ofWords_isCommand, SemicolonHarmless,
        hbefore]
      simp

/-! ## The console -/

/-- A text without its trailing `;`. -/
def stripSemicolon (sql : Str) : Str := if sql.getLast? = some ';' then sql.dropLast else sql

theorem request_strip_iff (sql : Str) :
    AdminCommand.request sql = AdminCommand.request (stripSemicolon sql) ↔
      (sql.getLast? = some ';' → SemicolonHarmless sql.dropLast) := by
  unfold stripSemicolon
  split
  · next hlast =>
    simp only [hlast, true_implies]
    rw [← request_append_semicolon_iff, List.dropLast_append_getLast? _ hlast]
  · next hlast => simp [hlast]

/-- The console answers each of the messages once, in order, on the text without its `;`. -/
def AnswersEach (ov : Overflow) (waitAnswered : Bool) (ms : List AdminQuery)
    (reads : List (List UInt8)) : Prop :=
  (run ov waitAnswered reads).map (List.map AdminCommand.request) =
    .ok (ms.map fun m => AdminCommand.request (stripSemicolon m.text))

/-- However the bytes of the messages are cut into reads, the console answers each message on its
    text exactly if each message is a read, none is a `SHUTDOWN WAIT` that is not answered, and no
    `;` matters. -/
theorem answers_iff (ov : Overflow) (waitAnswered : Bool) (ms : List AdminQuery)
    {reads : List (List UInt8)} (hreads : Reads reads) (hbytes : reads.flatten = stream ms) :
    AnswersEach ov waitAnswered ms reads ↔
      reads = ms.map AdminQuery.bytes ∧ (∀ m ∈ ms, blocks waitAnswered m.text = false) ∧
        ∀ m ∈ ms, m.text.getLast? = some ';' → SemicolonHarmless m.text.dropLast := by
  obtain ⟨qs, hrun, hlength, htexts⟩ := run_map_bytes ov waitAnswered ms
  have haligned : reads = ms.map AdminQuery.bytes →
      (∀ m ∈ ms, blocks waitAnswered m.text = false) → (AnswersEach ov waitAnswered ms reads ↔
        ∀ m ∈ ms, m.text.getLast? = some ';' → SemicolonHarmless m.text.dropLast) := by
    rintro rfl hnone
    rw [AnswersEach, hrun, htexts hnone]
    show Except.ok ((ms.map AdminQuery.text).map AdminCommand.request) = _ ↔ _
    rw [Except.ok.injEq, List.map_map, List.map_inj_left]
    exact forall₂_congr fun m _ => request_strip_iff m.text
  constructor
  · intro h
    obtain ⟨queries, hqueries, hmap⟩ := Rust.map_returns.1 h
    have hall := congrArg List.length hmap
    rw [List.length_map, List.length_map] at hall
    have heach := reads_of_length_run hreads hbytes hqueries (Nat.le_of_eq hall.symm)
    rw [heach, hrun] at hqueries
    cases hqueries
    have hnone := hlength.1 (Nat.le_of_eq hall.symm)
    exact ⟨heach, hnone, (haligned heach hnone).1 h⟩
  · rintro ⟨heach, hnone, hharmless⟩
    exact (haligned heach hnone).2 hharmless

def showPoolsQuery : AdminQuery :=
  ⟨Utf8.encode "SHOW POOLS".toList, by decide +kernel, by decide +kernel⟩

def reloadQuery : AdminQuery :=
  ⟨Utf8.encode "reload now;".toList, by decide +kernel, by decide +kernel⟩

/-- Two messages in two reads; what follows `RELOAD` does not matter, with its `;`. -/
theorem answers_two_messages :
    reloadQuery.text.getLast? = some ';' ∧
      AnswersEach .wrapping false [showPoolsQuery, reloadQuery]
        [showPoolsQuery.bytes, reloadQuery.bytes] := by
  have hreads : Reads [showPoolsQuery.bytes, reloadQuery.bytes] := by
    unfold Reads
    decide +kernel
  refine ⟨by decide +kernel, (answers_iff .wrapping false _ hreads rfl).2 ⟨rfl, ?_, ?_⟩⟩
  · decide +kernel
  intro m hm
  rcases List.mem_cons.1 hm with rfl | hm
  · intro hlast
    exact absurd hlast (by decide +kernel)
  · rw [List.mem_singleton.1 hm]
    exact fun _ => .inr (.inl (by decide +kernel))

def showPoolsSemicolon : AdminQuery :=
  ⟨Utf8.encode "SHOW POOLS;".toList, by decide +kernel, by decide +kernel⟩

def shutdownWaitQuery : AdminQuery :=
  ⟨Utf8.encode "SHUTDOWN WAIT".toList, by decide +kernel, by decide +kernel⟩

/-- `SHOW POOLS;` is no command, of two messages in one read the second is not answered, and neither
    is a `SHUTDOWN WAIT`. -/
theorem console_misses_messages :
    (run .wrapping false [showPoolsSemicolon.bytes]).map (List.map AdminCommand.request) =
        .ok [.error "Unknown admin command: SHOW POOLS;".toList] ∧
      ¬ AnswersEach .wrapping false [showPoolsSemicolon] [showPoolsSemicolon.bytes] ∧
      run .wrapping false [showPoolsQuery.bytes ++ reloadQuery.bytes] = .ok ["SHOW POOLS".toList] ∧
      ¬ AnswersEach .wrapping false [showPoolsQuery, reloadQuery]
        [showPoolsQuery.bytes ++ reloadQuery.bytes] ∧
      run .wrapping false [shutdownWaitQuery.bytes] = .ok [] ∧
      ¬ AnswersEach .wrapping false [shutdownWaitQuery] [shutdownWaitQuery.bytes] := by
  unfold AnswersEach
  decide +kernel

end AdminConnection

end ScryProxy
