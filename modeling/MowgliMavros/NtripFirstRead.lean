import Mathlib.Data.List.TakeWhile
import MowgliMavros.NtripHandlers
import MowgliMavros.NtripSegmentation

/-!
# What the first read carries of the stream

`Carries` says it without the searches of the handshake: the read is RTCM itself, or the text at its start
announces the stream, which begins after the header. The handshake passes on exactly that (`carries_iff`).
-/

namespace MowgliMavros

/-- The texts that a reply of the caster starts with. -/
def replyTexts : List String := ["HTTP/", "ICY ", "SOURCETABLE", "ERROR"]

def successTexts : List String := ["ICY 200", "HTTP/1.0 200", "HTTP/1.1 200"]

/-- RTCM from the first byte on. -/
def IsStream (first : Bytes) : Prop :=
  first.head? = some 0xD3 ∨ (∃ byte ∈ first, isNonAscii byte = true) ∧ ∀ text ∈ replyTexts, ¬ ascii text <+: first

def Announces (first : Bytes) : Prop := ∃ text ∈ successTexts, ascii text <+: first

/-- The bytes of the stream in the first read. -/
inductive Carries : Bytes → Bytes → Prop
  | stream {first : Bytes} (hstream : IsStream first) : Carries first first
  /-- The header is text and ends with its first blank line. -/
  | header {lines payload : Bytes} (hannounces : Announces (lines ++ blankLine ++ payload))
      (htext : ∀ byte ∈ lines ++ blankLine, isText byte = true)
      (honly : ∀ pre post, lines ++ blankLine = pre ++ blankLine ++ post → post = []) :
      Carries (lines ++ blankLine ++ payload) payload
  /-- Without a blank line in the text at the start the header is the first line. -/
  | line {line ends payload : Bytes} (hannounces : Announces (line ++ ends ++ payload))
      (htext : ∀ byte ∈ line, isText byte = true ∧ isLineEnd byte = false)
      (hends : ends ≠ [] ∧ ∀ byte ∈ ends, isLineEnd byte = true)
      (hpayload : ∀ byte ∈ payload.head?, isLineEnd byte = false)
      (hblank : ∀ pre post, (∀ byte ∈ pre, isText byte = true) → line ++ ends ++ payload ≠ pre ++ blankLine ++ post) :
      Carries (line ++ ends ++ payload) payload
  /-- A first line that does not end carries nothing. -/
  | unended {line rest : Bytes} (hannounces : Announces (line ++ rest))
      (htext : ∀ byte ∈ line, isText byte = true ∧ isLineEnd byte = false)
      (hrest : ∀ byte ∈ rest.head?, isText byte = false) : Carries (line ++ rest) []
  | refused {first : Bytes} (hstream : ¬ IsStream first) (hannounces : ¬ Announces first) : Carries first []

def HandshakeVerdict.payload : HandshakeVerdict → Bytes
  | reject _ _ => []
  | accept payload => payload

variable {first bs : Bytes}

/-! ### The tests -/

theorem startsWith_takeWhile {p : UInt8 → Bool} {text : String} (htext : ∀ byte ∈ ascii text, p byte = true) :
    startsWith (first.takeWhile p) text = true ↔ ascii text <+: first := by
  rw [startsWith_iff]
  constructor
  · exact fun h => h.trans (List.takeWhile_prefix p)
  · rintro ⟨rest, rfl⟩
    rw [List.takeWhile_append_of_pos htext]
    exact List.prefix_append _ _

theorem startsWith_start {text : String} (htext : ∀ byte ∈ ascii text, isText byte = true)
    (hlength : (ascii text).length ≤ 32) :
    startsWith ((first.take 32).takeWhile isText) text = true ↔ ascii text <+: first := by
  rw [startsWith_takeWhile htext, List.prefix_take_iff]
  exact and_iff_left hlength

theorem looksLikeRtcm3Stream_iff : looksLikeRtcm3Stream first = true ↔ IsStream first := by
  have htexts : ∀ text ∈ replyTexts, (∀ byte ∈ ascii text, isText byte = true) ∧ (ascii text).length ≤ 32 := by
    decide +kernel
  simp only [replyTexts, List.forall_mem_cons, List.not_mem_nil, false_imp_iff, implies_true, and_true] at htexts
  obtain ⟨hhttp, hicy, hsource, herror⟩ := htexts
  unfold looksLikeRtcm3Stream IsStream
  cases first with
  | nil => simp
  | cons front rest =>
    simp only [List.head?_cons, Option.any_some, Bool.or_eq_true, Bool.and_eq_true, Bool.not_eq_true',
      ← Bool.not_eq_true, startsWith_start hhttp.1 hhttp.2, startsWith_start hicy.1 hicy.2,
      startsWith_start hsource.1 hsource.2, startsWith_start herror.1 herror.2, decide_eq_true_eq, List.any_eq_true, Option.some.injEq, replyTexts,
      List.forall_mem_cons, List.not_mem_nil, false_imp_iff, implies_true, and_true, and_assoc]

theorem isSuccessStatusLine_iff :
    isSuccessStatusLine (extractStatusLine (extractTextPrefix first)) = true ↔ Announces first := by
  have htexts : ∀ text ∈ successTexts, ∀ byte ∈ ascii text, isText byte = true ∧ (!isLineEnd byte) = true := by
    decide +kernel
  have hstarts : ∀ text ∈ successTexts,
      (startsWith (extractStatusLine (extractTextPrefix first)) text = true ↔ ascii text <+: first) := by
    intro text hmem
    unfold extractStatusLine extractTextPrefix
    rw [startsWith_takeWhile fun byte hbyte => (htexts text hmem byte hbyte).2, ← startsWith_iff,
      startsWith_takeWhile fun byte hbyte => (htexts text hmem byte hbyte).1]
  simp only [successTexts, List.forall_mem_cons, List.not_mem_nil, false_imp_iff, implies_true, and_true] at hstarts
  simp [isSuccessStatusLine, hstarts, Announces, successTexts, or_assoc]

theorem handshakeVerdict_announced (h : Announces first) :
    ¬ IsStream first ∧ (handshakeVerdict first).payload = extractInitialPayload first (extractTextPrefix first) := by
  have hsuccess := success_read first (by simpa [Announces, successTexts] using h)
  obtain ⟨hrtcm, herror, herrorLine, hsuccess⟩ := hsuccess
  have hne : first ≠ [] := by
    rintro rfl
    cases hsuccess
  refine ⟨fun hstream => ?_, ?_⟩
  · rw [looksLikeRtcm3Stream_iff.2 hstream] at hrtcm
    cases hrtcm
  · unfold handshakeVerdict
    rw [if_neg hne, if_neg (by simp [hrtcm])]
    dsimp only
    rw [if_neg (by simp [herror, herrorLine]), if_neg (by simp [hsuccess])]
    rfl

theorem handshakeVerdict_stream (h : IsStream first) : (handshakeVerdict first).payload = first := by
  have hne : first ≠ [] := by
    rintro rfl
    rcases h with h | ⟨⟨byte, hbyte, -⟩, -⟩
    · cases h
    · cases hbyte
  unfold handshakeVerdict
  rw [if_neg hne, if_pos (looksLikeRtcm3Stream_iff.2 h)]
  rfl

theorem handshakeVerdict_refused (hstream : ¬ IsStream first) (hannounces : ¬ Announces first) :
    (handshakeVerdict first).payload = [] := by
  rw [← looksLikeRtcm3Stream_iff] at hstream
  rw [← isSuccessStatusLine_iff] at hannounces
  unfold handshakeVerdict
  split_ifs
  · rfl
  · dsimp only
    split_ifs <;> rfl

/-! ### The header -/

theorem takeWhile_of_stop {p : UInt8 → Bool} {text rest : Bytes} (htext : ∀ byte ∈ text, p byte = true)
    (hrest : ∀ byte ∈ rest.head?, p byte = false) : (text ++ rest).takeWhile p = text := by
  have hstop : rest.takeWhile p = [] := by
    cases rest with
    | nil => rfl
    | cons byte rest => exact List.takeWhile_cons_of_neg (by simp [hrest byte rfl])
  rw [List.takeWhile_append_of_pos htext, hstop, List.append_nil]

theorem isText_of_isLineEnd {byte : UInt8} (h : isLineEnd byte = true) : isText byte = true := by simp [isText, h]

theorem initialPayload_line {line ends payload : Bytes}
    (htext : ∀ byte ∈ line, isText byte = true ∧ isLineEnd byte = false)
    (hends : ends ≠ [] ∧ ∀ byte ∈ ends, isLineEnd byte = true)
    (hpayload : ∀ byte ∈ payload.head?, isLineEnd byte = false)
    (hblank : ∀ pre post, (∀ byte ∈ pre, isText byte = true) → line ++ ends ++ payload ≠ pre ++ blankLine ++ post) :
    extractInitialPayload (line ++ ends ++ payload) (extractTextPrefix (line ++ ends ++ payload)) = payload := by
  have hnone : List.firstInfix? blankLine (extractTextPrefix (line ++ ends ++ payload)) = none := by
    rw [List.firstInfix?_eq_none_iff]
    intro pre post heq
    refine hblank pre (post ++ (line ++ ends ++ payload).dropWhile isText) (fun byte hbyte => ?_) ?_
    · have hmem : byte ∈ extractTextPrefix (line ++ ends ++ payload) := by
        rw [heq]
        simp [hbyte]
      exact List.mem_takeWhile_imp hmem
    · rw [← List.append_assoc, ← heq]
      exact List.takeWhile_append_dropWhile.symm
  have hstart : extractTextPrefix (line ++ ends ++ payload) = line ++ (ends ++ extractTextPrefix payload) := by
    rw [← List.append_assoc]
    refine List.takeWhile_append_of_pos fun byte hbyte => ?_
    rcases List.mem_append.1 hbyte with hbyte | hbyte
    exacts [(htext byte hbyte).1, isText_of_isLineEnd (hends.2 byte hbyte)]
  obtain ⟨front, ends', rfl⟩ := List.exists_cons_of_ne_nil hends.1
  have hfront : isLineEnd front = true := hends.2 front List.mem_cons_self
  have hline : extractStatusLine (line ++ (front :: ends' ++ extractTextPrefix payload)) = line := by
    refine takeWhile_of_stop (fun byte hbyte => by simp [(htext byte hbyte).2]) fun byte hbyte => ?_
    obtain rfl := Option.some.inj hbyte
    simp [hfront]
  have hany : (line ++ (front :: ends' ++ extractTextPrefix payload)).any isLineEnd = true := by simp [hfront]
  have hdrop : (front :: ends' ++ payload).dropWhile isLineEnd = payload := by
    rw [List.dropWhile_append_of_pos hends.2]
    cases payload with
    | nil => rfl
    | cons byte payload => exact List.dropWhile_cons_of_neg (by simp [hpayload byte rfl])
  unfold extractInitialPayload
  rw [hnone, hstart]
  dsimp only
  rw [if_pos hany, hline, List.append_assoc, List.drop_left, hdrop]

theorem initialPayload_unended {line rest : Bytes}
    (htext : ∀ byte ∈ line, isText byte = true ∧ isLineEnd byte = false)
    (hrest : ∀ byte ∈ rest.head?, isText byte = false) :
    extractInitialPayload (line ++ rest) (extractTextPrefix (line ++ rest)) = [] := by
  have hstart : extractTextPrefix (line ++ rest) = line :=
    takeWhile_of_stop (fun byte hbyte => (htext byte hbyte).1) hrest
  have hnone : List.firstInfix? blankLine line = none := by
    rw [List.firstInfix?_eq_none_iff]
    rintro pre post rfl
    have hreturn := (htext 0x0D (by simp [blankLine, ascii])).2
    cases hreturn
  have hany : ¬ line.any isLineEnd = true := by
    rw [List.any_eq_true]
    rintro ⟨byte, hbyte, hend⟩
    rw [(htext byte hbyte).2] at hend
    cases hend
  unfold extractInitialPayload
  rw [hstart, hnone]
  exact if_neg hany

theorem Carries.payload_eq (h : Carries first bs) : (handshakeVerdict first).payload = bs := by
  cases h with
  | stream hstream => exact handshakeVerdict_stream hstream
  | header hannounces htext honly =>
    exact (handshakeVerdict_announced hannounces).2.trans (initialPayload_header htext honly _)
  | line hannounces htext hends hpayload hblank =>
    exact (handshakeVerdict_announced hannounces).2.trans (initialPayload_line htext hends hpayload hblank)
  | unended hannounces htext hrest =>
    exact (handshakeVerdict_announced hannounces).2.trans (initialPayload_unended htext hrest)
  | refused hstream hannounces => exact handshakeVerdict_refused hstream hannounces

/-! ### The kinds of a first read -/

theorem split_while (p : UInt8 → Bool) (bytes : Bytes) :
    ∃ start rest, bytes = start ++ rest ∧ (∀ byte ∈ start, p byte = true) ∧ ∀ byte ∈ rest.head?, p byte = false := by
  refine ⟨bytes.takeWhile p, bytes.dropWhile p, List.takeWhile_append_dropWhile.symm,
    fun byte hbyte => List.mem_takeWhile_imp hbyte, fun byte hbyte => ?_⟩
  have hstop := List.head?_dropWhile_not p bytes
  rw [hbyte] at hstop
  exact hstop

/-- With a blank line in its text. -/
theorem carries_header {text rest : Bytes} {i : Nat} (hannounces : Announces (text ++ rest))
    (htext : ∀ byte ∈ text, isText byte = true) (hfind : List.firstInfix? blankLine text = some i) :
    ∃ bs, Carries (text ++ rest) bs := by
  obtain ⟨lines, post, rfl, rfl⟩ := List.firstInfix?_some hfind
  rw [List.append_assoc] at hannounces ⊢
  exact ⟨post ++ rest, .header hannounces (fun byte hbyte => htext byte (List.mem_append_left post hbyte))
    (only_of_find hfind)⟩

theorem isText_blankLine : ∀ byte ∈ blankLine, isText byte = true := by decide +kernel

/-- Without one. -/
theorem carries_line {text rest : Bytes} (hannounces : Announces (text ++ rest))
    (htext : ∀ byte ∈ text, isText byte = true) (hrest : ∀ byte ∈ rest.head?, isText byte = false)
    (hfind : List.firstInfix? blankLine text = none) : ∃ bs, Carries (text ++ rest) bs := by
  have hstart : (text ++ rest).takeWhile isText = text := takeWhile_of_stop htext hrest
  obtain ⟨line, tail, rfl, hline, htail⟩ := split_while (fun byte => !isLineEnd byte) text
  have hline' : ∀ byte ∈ line, isText byte = true ∧ isLineEnd byte = false := fun byte hbyte =>
    ⟨htext byte (List.mem_append_left tail hbyte), by simpa using hline byte hbyte⟩
  cases tail with
  | nil =>
    rw [List.append_nil] at hannounces ⊢
    exact ⟨[], .unended hannounces hline' hrest⟩
  | cons front tail =>
    have hfront : isLineEnd front = true := by simpa using htail front rfl
    obtain ⟨ends, payload, heq, hends, hpayload⟩ := split_while isLineEnd (tail ++ rest)
    have hread : line ++ front :: tail ++ rest = line ++ (front :: ends) ++ payload := by
      rw [List.append_assoc, List.cons_append, heq, ← List.cons_append, List.append_assoc]
    rw [hread] at hannounces hstart ⊢
    refine ⟨payload, .line hannounces hline' ⟨List.cons_ne_nil _ _, ?_⟩ hpayload fun pre post hpre hblank => ?_⟩
    · rintro byte (_ | ⟨_, hbyte⟩)
      exacts [hfront, hends byte hbyte]
    -- a blank line of the read lies in its text
    · rw [hblank, List.takeWhile_append_of_pos] at hstart
      · exact (List.firstInfix?_eq_none_iff.1 hfind) pre _ hstart.symm
      · intro byte hbyte
        rcases List.mem_append.1 hbyte with hbyte | hbyte
        exacts [hpre byte hbyte, isText_blankLine byte hbyte]

theorem carries_total (first : Bytes) : ∃ bs, Carries first bs := by
  by_cases hstream : IsStream first
  · exact ⟨first, .stream hstream⟩
  by_cases hannounces : Announces first
  · obtain ⟨text, rest, rfl, htext, hrest⟩ := split_while isText first
    cases hfind : List.firstInfix? blankLine text with
    | none => exact carries_line hannounces htext hrest hfind
    | some i => exact carries_header hannounces htext hfind
  · exact ⟨[], .refused hstream hannounces⟩

/-- The handshake passes on what the first read carries. -/
theorem carries_iff : Carries first bs ↔ (handshakeVerdict first).payload = bs := by
  constructor
  · exact Carries.payload_eq
  · rintro rfl
    obtain ⟨bs, hbs⟩ := carries_total first
    rwa [hbs.payload_eq]

end MowgliMavros
