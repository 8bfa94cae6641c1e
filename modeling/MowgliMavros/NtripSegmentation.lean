import MowgliMavros.NtripConnection

/-!
# TCP segmentation of an NTRIP response

The handshake looks at the first read only. The payload arrives as it was sent exactly when that read
holds the whole header (`payload_of_segmentation`).
-/

namespace MowgliMavros

theorem startsWith_iff {value : Bytes} {start : String} : startsWith value start = true ↔ ascii start <+: value :=
  List.isPrefixOf_iff_prefix

theorem payload_append (as bs : List NtripOutput) : payload (as ++ bs) = payload as ++ payload bs :=
  List.flatMap_append

/-! ### The header in the first read -/

section Header
variable {header more : Bytes}

/-- A header begins with one of the success texts. -/
theorem NtripHeader.cases (h : NtripHeader header) :
    ascii "ICY 200" <+: header ∨ ascii "HTTP/1.0 200" <+: header ∨ ascii "HTTP/1.1 200" <+: header := by
  have hstatus := h.status
  have hline : extractStatusLine header <+: header := List.takeWhile_prefix _
  simp only [isSuccessStatusLine, Bool.or_eq_true, startsWith_iff] at hstatus
  rcases hstatus with (h | h) | h
  exacts [.inl (h.trans hline), .inr (.inl (h.trans hline)), .inr (.inr (h.trans hline))]

theorem not_rtcm {buffer : Bytes} (hfront : buffer.head? ≠ some 0xD3)
    (h : startsWith ((buffer.take 32).takeWhile isText) "HTTP/" = true ∨
      startsWith ((buffer.take 32).takeWhile isText) "ICY " = true) : looksLikeRtcm3Stream buffer = false := by
  cases buffer with
  | nil => rfl
  | cons front rest =>
    have hfront : front ≠ 0xD3 := fun heq => hfront (congrArg some heq)
    rcases h with h | h <;>
      simp only [looksLikeRtcm3Stream, List.head?_cons, Option.any_some, hfront, decide_false, h, Bool.not_true,
        Bool.and_false, Bool.false_and, Bool.or_self]

/-- What the handshake tests of a read that begins with a success text. -/
theorem success_read (buffer : Bytes)
    (h : ascii "ICY 200" <+: buffer ∨ ascii "HTTP/1.0 200" <+: buffer ∨ ascii "HTTP/1.1 200" <+: buffer) :
    looksLikeRtcm3Stream buffer = false ∧ isTextualErrorResponse (extractTextPrefix buffer) = false ∧
      isTextualErrorResponse (extractStatusLine (extractTextPrefix buffer)) = false ∧
      isSuccessStatusLine (extractStatusLine (extractTextPrefix buffer)) = true := by
  rcases h with ⟨rest, rfl⟩ | ⟨rest, rfl⟩ | ⟨rest, rfl⟩
  · exact ⟨not_rtcm (by rw [show (ascii "ICY 200" ++ rest).head? = some 73 from rfl]; decide) (.inr rfl), rfl,
      rfl, rfl⟩
  · exact ⟨not_rtcm (by rw [show (ascii "HTTP/1.0 200" ++ rest).head? = some 72 from rfl]; decide) (.inl rfl), rfl,
      rfl, rfl⟩
  · exact ⟨not_rtcm (by rw [show (ascii "HTTP/1.1 200" ++ rest).head? = some 72 from rfl]; decide) (.inl rfl), rfl,
      rfl, rfl⟩

/-- The blank line found in a text whose first blank line it is. -/
theorem find_blankLine {lines : Bytes}
    (honly : ∀ pre post, lines ++ blankLine = pre ++ blankLine ++ post → post = []) (more : Bytes) :
    List.firstInfix? blankLine (lines ++ blankLine ++ more) = some lines.length := by
  refine List.firstInfix?_append ?_ more
  have hfound := List.firstInfix?_eq_some blankLine lines [] fun pre post heq => ?_
  · rwa [List.append_nil] at hfound
  · rw [List.append_nil] at heq
    obtain rfl := honly pre post heq
    rw [List.append_nil] at heq
    exact Nat.le_of_eq (congrArg List.length (List.append_cancel_right heq))

/-- No blank line comes before the one that the search found. -/
theorem only_of_find {lines : Bytes} (h : List.firstInfix? blankLine (lines ++ blankLine ++ more) = some lines.length)
    (pre post : Bytes) (heq : lines ++ blankLine = pre ++ blankLine ++ post) : post = [] := by
  rw [heq, List.append_assoc] at h
  have hfirst := List.firstInfix?_first h
  have hlength := congrArg List.length heq
  simp only [List.length_append] at hlength
  exact List.eq_nil_of_length_eq_zero (by omega)

/-- A header by the search for its blank line. -/
theorem NtripHeader.of_find (htext : ∀ byte ∈ header, isText byte = true)
    (hstatus : isSuccessStatusLine (extractStatusLine header) = true) (hends : blankLine <:+ header)
    (hfind : List.firstInfix? blankLine header = some (header.length - 4)) : NtripHeader header := by
  refine ⟨htext, hstatus, hends, ?_⟩
  obtain ⟨lines, rfl⟩ := hends
  have hlength : (lines ++ blankLine).length - 4 = lines.length := by
    rw [List.length_append]
    rfl
  have hfind' : List.firstInfix? blankLine (lines ++ blankLine ++ []) = some lines.length := by
    rw [List.append_nil, hfind, hlength]
  exact only_of_find hfind'

/-- What follows the first blank line of the text is the payload. -/
theorem initialPayload_header {lines : Bytes} (htext : ∀ byte ∈ lines ++ blankLine, isText byte = true)
    (honly : ∀ pre post, lines ++ blankLine = pre ++ blankLine ++ post → post = []) (more : Bytes) :
    extractInitialPayload (lines ++ blankLine ++ more) (extractTextPrefix (lines ++ blankLine ++ more)) = more := by
  have hstart : extractTextPrefix (lines ++ blankLine ++ more) = lines ++ blankLine ++ extractTextPrefix more :=
    List.takeWhile_append_of_pos htext
  unfold extractInitialPayload
  rw [hstart, find_blankLine honly]
  exact List.drop_left' List.length_append

/-- The payload of a first read that holds the header. -/
theorem NtripHeader.initialPayload (h : NtripHeader header) (more : Bytes) :
    extractInitialPayload (header ++ more) (extractTextPrefix (header ++ more)) = more := by
  obtain ⟨lines, rfl⟩ := h.ends
  exact initialPayload_header h.text h.only more

end Header

namespace NtripConnection
variable {c : NtripConnection} {header more : Bytes} {reads : List Bytes}

@[simp] theorem fail_phase (state error : String) : (c.fail state error).1.phase = .reconnecting := rfl

@[simp] theorem startStreaming_phase (bytes : Bytes) : (c.startStreaming bytes).1.phase = .streaming := rfl

theorem deliver_payload (bytes : Bytes) : payload (c.deliver bytes).2 = bytes := by
  unfold deliver
  dsimp only
  split
  · exact ‹bytes = []›.symm
  · exact List.append_nil bytes

theorem startStreaming_payload (bytes : Bytes) : payload (c.startStreaming bytes).2 = bytes := by
  unfold startStreaming
  dsimp only
  rw [payload_append, deliver_payload]
  rfl

/-- The header is dropped from a first read that holds it. -/
theorem handshakeRead_header (h : NtripHeader header) (more : Bytes) :
    c.handshakeRead (header ++ more) = c.startStreaming more := by
  obtain ⟨hrtcm, herror, herrorLine, hsuccess⟩ := success_read (header ++ more) (by
    have hmore : header <+: header ++ more := List.prefix_append _ _
    rcases h.cases with h | h | h
    exacts [.inl (h.trans hmore), .inr (.inl (h.trans hmore)), .inr (.inr (h.trans hmore))])
  have hne : header ++ more ≠ [] := fun heq => by
    rw [(List.append_eq_nil_iff.1 heq).1] at h
    cases h.ends.length_le
  unfold handshakeRead
  rw [if_neg hne, if_neg (by simp [hrtcm])]
  dsimp only
  rw [if_neg (by simp [herror, herrorLine]), if_neg (by simp [hsuccess]), h.initialPayload]

theorem handshakeRead_phase (chunk : Bytes) :
    (c.handshakeRead chunk).1.phase = .streaming ∨ (c.handshakeRead chunk).1.phase = .reconnecting := by
  unfold handshakeRead
  dsimp only
  repeat' split
  all_goals simp

/-! ### The reads of a response -/

theorem reconnecting_run (hc : c.phase = .reconnecting) (reads : List Bytes) :
    (machine.final c (reads.map .read)).phase = .reconnecting := by
  induction reads with
  | nil => exact hc
  | cons bytes reads ih =>
    have hstep : c.step (.read bytes) = (c, []) := by
      unfold step
      rw [hc]
    rw [List.map_cons, Machine.final_cons, show (machine.step c (.read bytes)).1 = c from congrArg Prod.fst hstep]
    exact ih

/-- A stream passes on what it reads. -/
theorem streaming_run (hc : c.phase = .streaming) (reads : List Bytes) :
    payload (machine.log c (reads.map .read)) = reads.flatten ∧
      (machine.final c (reads.map .read)).phase = .streaming := by
  induction reads generalizing c with
  | nil => exact ⟨rfl, hc⟩
  | cons bytes reads ih =>
    have hstep : machine.step c (.read bytes) = c.deliver bytes := by
      change c.step _ = _
      unfold step
      rw [hc]
    obtain ⟨hpayload, hphase⟩ := ih (c := (c.deliver bytes).1) hc
    rw [List.map_cons, Machine.log_cons, Machine.final_cons, hstep, payload_append, deliver_payload, hpayload]
    exact ⟨List.flatten_cons.symm, hphase⟩

/-- The bytes after a first read that is accepted all arrive. -/
theorem accepted_run (hc : c.phase = .handshake) (first : Bytes) (reads : List Bytes)
    (hphase : (machine.final c ((first :: reads).map .read)).phase = .streaming) :
    payload (machine.log c ((first :: reads).map .read)) = payload (c.handshakeRead first).2 ++ reads.flatten := by
  have hstep : machine.step c (.read first) = c.handshakeRead first := by
    change c.step _ = _
    unfold step
    rw [hc]
  rw [List.map_cons, Machine.final_cons, hstep] at hphase
  rw [List.map_cons, Machine.log_cons, hstep, payload_append]
  rcases handshakeRead_phase (c := c) first with h | h
  · rw [(streaming_run h reads).1]
  · rw [reconnecting_run h] at hphase
    cases hphase

/-- The data callback was given the payload and nothing else, and the response was not rejected. -/
def Forwards (c : NtripConnection) (reads : List Bytes) (bytes : Bytes) : Prop :=
  payload (machine.log c (reads.map .read)) = bytes ∧ (machine.final c (reads.map .read)).phase = .streaming

instance (c : NtripConnection) (reads : List Bytes) (bytes : Bytes) : Decidable (c.Forwards reads bytes) :=
  inferInstanceAs (Decidable (_ ∧ _))

/-- However a response is split, its payload is passed on as it is exactly when the first read holds the
whole header. -/
theorem payload_of_segmentation (stats : ConnectionStats) (header bytes : Bytes) (reads : List Bytes)
    (h : NtripHeader header) (hreads : Segmented reads (header ++ bytes)) :
    Forwards ⟨.handshake, stats⟩ reads bytes ↔ ∃ first ∈ reads.head?, header.length ≤ first.length := by
  cases reads with
  | nil =>
    have hnil : header ++ bytes = [] := hreads.joins.symm
    rw [(List.append_eq_nil_iff.1 hnil).1] at h
    cases h.ends.length_le
  | cons first reads =>
    have hjoins : first ++ reads.flatten = header ++ bytes := hreads.joins
    simp only [List.head?_cons, Option.mem_def, Option.some.injEq, exists_eq_left']
    constructor
    · rintro ⟨hpayload, hphase⟩
      -- the reads after the first are passed on in any case, and they are too long
      have hlonger : reads.flatten.length ≤ bytes.length := by
        rw [← hpayload, accepted_run rfl first reads hphase, List.length_append]
        exact Nat.le_add_left _ _
      have hlength := congrArg List.length hjoins
      simp only [List.length_append] at hlength
      omega
    · intro hlong
      obtain ⟨more, rfl⟩ := List.prefix_of_prefix_length_le (hjoins ▸ List.prefix_append header bytes)
        (List.prefix_append first reads.flatten) hlong
      have hrest : more ++ reads.flatten = bytes := by
        rw [List.append_assoc] at hjoins
        exact List.append_cancel_left hjoins
      have hfirst : machine.step ⟨.handshake, stats⟩ (.read (header ++ more)) =
          startStreaming ⟨.handshake, stats⟩ more :=
        handshakeRead_header h more
      have hphase : (machine.final ⟨.handshake, stats⟩ (((header ++ more) :: reads).map .read)).phase =
          .streaming := by
        rw [List.map_cons, Machine.final_cons, hfirst]
        exact (streaming_run (startStreaming_phase more) reads).2
      refine ⟨?_, hphase⟩
      rw [accepted_run rfl _ _ hphase, handshakeRead_header h, startStreaming_payload, hrest]

theorem icy_header : NtripHeader (ascii "ICY 200 OK\r\n\r\n") :=
  .of_find (List.all_eq_true.1 (by decide)) (by decide) (by decide) (by decide)

/-- The payload begins in the first read. -/
theorem payload_of_segmentation_two :
    Forwards {} [ascii "ICY 200 OK\r\n\r\n" ++ [0xD3, 0], [19, 62]] [0xD3, 0, 19, 62] :=
  (payload_of_segmentation {} _ _ _ icy_header ⟨by decide, by decide⟩).2 ⟨_, rfl, by decide⟩

/-- The blank line comes in a second read and is passed on. -/
theorem split_header_forwarded :
    ¬ ∀ header bytes reads, NtripHeader header → Segmented reads (header ++ bytes) → Forwards {} reads bytes :=
      fun h =>
  absurd (h _ [0xD3, 0, 19, 62] [ascii "ICY 200 OK\r\n", ascii "\r\n" ++ [0xD3, 0, 19, 62]] icy_header
    ⟨by decide, by decide⟩) (by decide +kernel)

end NtripConnection
end MowgliMavros
