import MowgliMavros.BladeFailsafe
import Mathlib.Data.Int.Order.Basic
import Mathlib.Data.List.Chain

/-!
# The start and inversion interlock

Whenever `next` returns FWD or REV, the events before it end in an accepted neutral that was emitted
after every earlier ON, followed by a stop proof. The invariant `Interlock t l s` carries this
backwards through the run: `pending` remembers the emission of a neutral in flight, `done` the
accepted neutral and the samples counted since, as long as `confirmed_` is OFF, no failure is
latched and no ON is in flight. `Acquisition` relates the acquisition fields to the samples taken
since the last link change.
-/

namespace MowgliMavros
namespace BladeControl

/-! ### Samples along the events -/

def Event.acquired? : Event → Option Acquired
  | acquired a => some a
  | _ => none

def acquisitions (l : List Event) : List Acquired := l.filterMap Event.acquired?

def sinceLink (l : List Event) : List Acquired :=
  l.foldl (fun taken e => match e with
    | .linked => []
    | .acquired a => taken ++ [a]
    | _ => taken) []

/-- Two samples taken one after the other on one link: the stamp advances, and so does the counter of
source 2. -/
def Distinct (a b : Acquired) : Prop :=
  a.sample.stamp < b.sample.stamp ∧
    (a.sample.source = 2 → b.sample.source = 2 → b.sample.count ≠ a.sample.count)

def Succeeds (freshnessMs : Int) (a b : Acquired) : Prop :=
  Distinct a b ∧ a.receipt ≤ b.receipt ∧ b.receipt - a.receipt ≤ freshnessMs

/-- Five or more zero samples of one source, without a gap, spanning the coast time up to `now`. -/
structure StopProof (config : Config) (now : Int) (proof : List Acquired) : Prop where
  five : 5 ≤ proof.length
  zero : ∀ a ∈ proof, a.sample.rpm = 0
  source : ∃ source, (source = 1 ∨ source = 2) ∧ ∀ a ∈ proof, a.sample.source = source
  successive : proof.IsChain (Succeeds config.freshnessMs)
  coasted : ∃ a, proof.head? = some a ∧ config.coastMs ≤ now - a.receipt
  fresh : ∃ a, proof.getLast? = some a ∧ a.receipt ≤ now ∧ now - a.receipt ≤ config.freshnessMs

def NoOn (l : List Event) : Prop := ∀ c, .emitted c ∈ l → ¬ c.direction.IsOn

def NoNeutral (l : List Event) : Prop := ∀ c, .acked c ∈ l → c.direction ≠ .off

section Lists
variable (l l' : List Event)

@[simp] theorem acquisitions_append : acquisitions (l ++ l') = acquisitions l ++ acquisitions l' := by
  simp [acquisitions]

@[simp] theorem acquisitions_nil : acquisitions [] = [] := rfl

@[simp] theorem sinceLink_nil : sinceLink [] = [] := rfl

@[simp] theorem sinceLink_linked : sinceLink (l ++ [.linked]) = [] := by simp [sinceLink]

@[simp] theorem sinceLink_acquired (a : Acquired) : sinceLink (l ++ [.acquired a]) = sinceLink l ++ [a] := by
  simp [sinceLink]

theorem sinceLink_append {l' : List Event} (h : .linked ∉ l') :
    sinceLink (l ++ l') = sinceLink l ++ acquisitions l' := by
  induction l' generalizing l with
  | nil => simp
  | cons e l' ih =>
    have h' : .linked ∉ l' := fun hm => h (by simp [hm])
    have hcons := ih (l ++ [e]) h'
    rw [List.append_assoc, List.singleton_append] at hcons
    rw [hcons]
    cases e with
    | linked => simp at h
    | acquired a => simp [acquisitions, Event.acquired?]
    | emitted c => simp [sinceLink]; rfl
    | acked c => simp [sinceLink]; rfl

end Lists

/-! ### Quiet steps -/

/-- From `s` to `s'` no sample was taken, no link changed and nothing was sent; and `s'` forgot the
confirmed direction, latched a failure, or kept all that a stop proof rests on. -/
structure Quiet (s s' : BladeControl) : Prop where
  stamp : s'.sampleStamp = s.sampleStamp
  source : s'.sampleSource = s.sampleSource
  count : s'.sampleCount = s.sampleCount
  receipt : s'.sampleReceipt = s.sampleReceipt
  flight : s'.inFlight = none ∨ s'.inFlight = s.inFlight
  kept : s'.confirmed = .unknown ∨ s'.fault = true ∨
    s'.confirmed = s.confirmed ∧ s'.fault = s.fault ∧ s'.inFlight = s.inFlight ∧
      s'.stopSince = s.stopSince ∧ s'.stopSamples = s.stopSamples ∧ s'.config = s.config

variable {s s' : BladeControl} {l : List Event} {t now : Int}

namespace Quiet

theorem refl : s.Quiet s := ⟨rfl, rfl, rfl, rfl, .inr rfl, .inr (.inr ⟨rfl, rfl, rfl, rfl, rfl, rfl⟩)⟩

theorem of_latched (h : s.Latched s') : s.Quiet s' := by
  obtain ⟨_, _, _, _, rfl, hi, -⟩ := h
  exact ⟨rfl, rfl, rfl, rfl, hi, .inr (.inl rfl)⟩

theorem forceOff : s.Quiet (s.forceOff now) := ⟨rfl, rfl, rfl, rfl, .inl rfl, .inl rfl⟩

theorem serviceTimeout : s.Quiet (s.serviceTimeout now) := ⟨rfl, rfl, rfl, rfl, .inl rfl, .inl rfl⟩

theorem permission {allowed : Bool} : s.Quiet (s.permission allowed now) := by
  unfold BladeControl.permission
  split_ifs
  · exact ⟨rfl, rfl, rfl, rfl, .inl rfl, .inl rfl⟩
  · exact ⟨rfl, rfl, rfl, rfl, .inr rfl, .inr (.inr ⟨rfl, rfl, rfl, rfl, rfl, rfl⟩)⟩

theorem request {direction : Direction} : s.Quiet (s.request direction now).1 := by
  rcases request_cases s direction now with h | ⟨-, -, -, -, ⟨-, h⟩ | ⟨-, -, h⟩ | ⟨-, -, h⟩ | ⟨-, -, -, -, h⟩⟩ <;>
    rw [h]
  · exact refl
  · exact ⟨rfl, rfl, rfl, rfl, .inl rfl, .inl rfl⟩
  · exact ⟨rfl, rfl, rfl, rfl, .inl rfl, .inl rfl⟩
  · exact ⟨rfl, rfl, rfl, rfl, .inr rfl, .inr (.inr ⟨rfl, rfl, rfl, rfl, rfl, rfl⟩)⟩
  · exact ⟨rfl, rfl, rfl, rfl, .inr rfl, .inr (.inr ⟨rfl, rfl, rfl, rfl, rfl, rfl⟩)⟩

theorem tick : s.Quiet (s.tick now) := by
  rcases tick_cases s now with h | h
  · rw [h]; exact refl
  · exact of_latched h

theorem output {pwmValue : Int} : s.Quiet (s.output pwmValue now) := by
  rcases output_cases s pwmValue now with h | h <;> rw [h]
  exacts [refl, forceOff]

end Quiet

/-! ### The acquisition fields -/

/-- The acquisition fields hold the last sample taken on this link. -/
structure Acquisition (t : Int) (l : List Event) (s : BladeControl) : Prop where
  distinct : (sinceLink l).IsChain Distinct
  last : ∀ a, (sinceLink l).getLast? = some a →
    a.sample.stamp = s.sampleStamp ∧ a.sample.source = s.sampleSource ∧ a.sample.count = s.sampleCount ∧
      a.receipt = s.sampleReceipt ∧ 0 ≤ a.receipt
  receipt : s.sampleReceipt ≤ t

namespace Acquisition

theorem mono {t' : Int} (ht : t ≤ t') (h : Acquisition t l s) : Acquisition t' l s :=
  ⟨h.distinct, h.last, Int.le_trans h.receipt ht⟩

theorem congr (h : Acquisition t l s) (hstamp : s'.sampleStamp = s.sampleStamp)
    (hsource : s'.sampleSource = s.sampleSource) (hcount : s'.sampleCount = s.sampleCount)
    (hreceipt : s'.sampleReceipt = s.sampleReceipt) {l' : List Event} (hlink : .linked ∉ l')
    (hacq : acquisitions l' = []) : Acquisition t (l ++ l') s' := by
  have hl : sinceLink (l ++ l') = sinceLink l := by rw [sinceLink_append l hlink, hacq, List.append_nil]
  refine ⟨hl ▸ h.distinct, fun a ha => ?_, hreceipt ▸ h.receipt⟩
  rw [hstamp, hsource, hcount, hreceipt]; exact h.last a (hl ▸ ha)

theorem distinct_next (h : Acquisition t l s) {x : Sample} (hx : ¬ s.Ignores x) {a : Acquired}
    (ha : (sinceLink l).getLast? = some a) : Distinct a ⟨x, now⟩ := by
  obtain ⟨hstamp, hsrc, hcnt, -, -⟩ := h.last a ha
  simp only [Ignores, not_or, not_and] at hx
  obtain ⟨-, -, -, -, hnew, hcount⟩ := hx
  refine ⟨by simp only [hstamp]; omega, fun ha2 hx2 => ?_⟩
  rw [hcnt]
  exact (hcount (hsrc.symm.trans (ha2.trans hx2.symm)) hx2).2

theorem sample (h : Acquisition t l s) (hnow : 0 ≤ now) {x : Sample} (hx : ¬ s.Ignores x) :
    Acquisition now (l ++ [.acquired ⟨x, now⟩]) (s.sample x now) := by
  rw [sample_eq hx]
  refine ⟨?_, fun a ha => ?_, Int.le_refl _⟩
  · rw [sinceLink_acquired, List.isChain_append]
    refine ⟨h.distinct, List.isChain_singleton _, fun a ha b hb => ?_⟩
    obtain rfl : (⟨x, now⟩ : Acquired) = b := by simpa using hb
    exact h.distinct_next hx ha
  · rw [sinceLink_acquired] at ha
    obtain rfl : (⟨x, now⟩ : Acquired) = a := by simpa using ha
    exact ⟨rfl, rfl, rfl, rfl, hnow⟩

end Acquisition

/-! ### The stop counters -/

/-- `proof` is every sample taken since the first one the stop counters count. -/
structure Stopping (s : BladeControl) (proof : List Acquired) : Prop where
  count : s.stopSamples ≤ proof.length
  zero : ∀ a ∈ proof, a.sample.rpm = 0
  source : ∀ a ∈ proof, a.sample.source = s.sampleSource
  known : ∀ a ∈ proof, a.sample.source = 1 ∨ a.sample.source = 2
  successive : proof.IsChain (Succeeds s.config.1.freshnessMs)
  since : if s.stopSince < 0 then s.stopSamples = 0 else ∃ a, proof.head? = some a ∧ a.receipt = s.stopSince

namespace Stopping

theorem start (hsince : s.stopSince < 0) (hsamples : s.stopSamples = 0) : s.Stopping [] :=
  ⟨by simp [hsamples], by simp, by simp, by simp, List.isChain_nil, by simp [hsince, hsamples]⟩

theorem congr {proof : List Acquired} (h : s.Stopping proof) (hsource : s'.sampleSource = s.sampleSource)
    (hsince : s'.stopSince = s.stopSince) (hsamples : s'.stopSamples = s.stopSamples)
    (hconfig : s'.config = s.config) : s'.Stopping proof :=
  ⟨hsamples ▸ h.count, h.zero, hsource ▸ h.source, h.known, hconfig ▸ h.successive,
    by rw [hsince, hsamples]; exact h.since⟩

theorem first {x : Sample} (hx : ¬ s.Ignores x) (hnow : 0 ≤ now) (hc : s.Counts x now)
    (hb : s.Broken x now ∨ s.stopSince < 0 ∧ s.stopSamples = 0) :
    (s.sample x now).Stopping [⟨x, now⟩] := by
  rw [sample_eq hx]
  have hsamples : (if s.Broken x now then 0 else s.stopSamples) = 0 := by
    split_ifs with hbr
    · rfl
    · exact (hb.resolve_left hbr).2
  have hsince : s.Broken x now ∨ s.stopSince < 0 := hb.imp_right And.left
  refine ⟨by simp [hc, hsamples], by simpa using hc.1, by simp, ?_, List.isChain_singleton _, ?_⟩
  · simp only [Ignores, not_or, not_and, not_not] at hx
    simp only [List.mem_singleton, forall_eq]
    by_cases h1 : x.source = 1
    exacts [.inl h1, .inr (hx.2.1 h1)]
  · simp [hc, hsince, Int.not_lt.2 hnow]

theorem more {proof : List Acquired} (h : s.Stopping proof) {x : Sample} (hx : ¬ s.Ignores x)
    (hc : s.Counts x now) (hb : ¬ s.Broken x now) (hs : ¬ s.stopSince < 0)
    (hnext : ∀ a, proof.getLast? = some a → Succeeds s.config.1.freshnessMs a ⟨x, now⟩) :
    (s.sample x now).Stopping (proof ++ [⟨x, now⟩]) := by
  rw [sample_eq hx]
  have hsource : s.sampleSource = x.source := by
    by_contra hne; exact hb (.inl hne)
  obtain ⟨a, hhead, ha⟩ : ∃ a, proof.head? = some a ∧ a.receipt = s.stopSince := by simpa [hs] using h.since
  have hmem : a ∈ proof := List.mem_of_head? hhead
  refine ⟨?_, fun b hb' => ?_, fun b hb' => ?_, fun b hb' => ?_, ?_, ?_⟩
  · have hcount := h.count
    simp only [hc, hb, if_true, if_false, List.length_append, List.length_singleton]
    omega
  · rcases List.mem_append.1 hb' with hb' | hb'
    · exact h.zero b hb'
    · obtain rfl := List.mem_singleton.1 hb'; exact hc.1
  · rcases List.mem_append.1 hb' with hb' | hb'
    · exact (h.source b hb').trans hsource
    · obtain rfl := List.mem_singleton.1 hb'; rfl
  · rcases List.mem_append.1 hb' with hb' | hb'
    · exact h.known b hb'
    · obtain rfl := List.mem_singleton.1 hb'
      have hsrc := h.source a hmem
      have hknown := h.known a hmem
      rw [hsrc, hsource] at hknown; exact hknown
  · rw [List.isChain_append]
    refine ⟨h.successive, List.isChain_singleton _, fun b hb' c hc' => ?_⟩
    obtain rfl : (⟨x, now⟩ : Acquired) = c := by simpa using hc'
    exact hnext b hb'
  · simp [hc, hb, hs, hhead, ha]

theorem stopProof {proof : List Acquired} (h : s.Stopping proof) (hstop : s.Stopped now)
    (hlast : ∀ a, proof.getLast? = some a → a.receipt = s.sampleReceipt) :
    StopProof s.config.1 now proof := by
  obtain ⟨-, -, hle, hfresh, hsince, hcoast, hfive⟩ := hstop
  obtain ⟨a, hhead, ha⟩ : ∃ a, proof.head? = some a ∧ a.receipt = s.stopSince := by
    simpa [Int.not_lt.2 hsince] using h.since
  have hmem : a ∈ proof := List.mem_of_head? hhead
  obtain ⟨b, hb⟩ : ∃ b, proof.getLast? = some b := by
    cases hp : proof.getLast? with
    | some b => exact ⟨b, rfl⟩
    | none => rw [List.getLast?_eq_none_iff.1 hp] at hmem; cases hmem
  refine ⟨Nat.le_trans hfive h.count, h.zero, ⟨s.sampleSource, ?_, h.source⟩, h.successive,
    ⟨a, hhead, by omega⟩, ⟨b, hb, ?_, ?_⟩⟩
  · rw [← h.source a hmem]; exact h.known a hmem
  · rw [hlast b hb]; exact hle
  · rw [hlast b hb]; exact hfresh

end Stopping

/-! ### The invariant -/

/-- The events end in an accepted neutral, returned after every ON, and the samples taken since the
acceptance end in what the stop counters count. -/
def Neutralized (s : BladeControl) (l : List Event) : Prop :=
  ∃ before n between after rest proof, l = before ++ .emitted n :: (between ++ .acked n :: after) ∧
    n.direction = .off ∧ NoOn between ∧ NoOn after ∧ NoNeutral after ∧ .linked ∉ after ∧
    acquisitions after = rest ++ proof ∧ s.Stopping proof

structure Interlock (t : Int) (l : List Event) (s : BladeControl) : Prop where
  start : 0 ≤ t
  acquisition : Acquisition t l s
  rep : Rep (lastEmitted l) (lastAcked l) s
  /-- A neutral in flight was returned after every ON. -/
  pending : ∀ n, s.inFlight = some n → n.direction = .off →
    ∃ before between, l = before ++ .emitted n :: between ∧ NoOn between
  done : s.confirmed = .off → s.fault = false → (∀ c, s.inFlight = some c → c.direction = .off) →
    s.Neutralized l

theorem Neutralized.extend (h : s.Neutralized l) {l' : List Event} (hon : NoOn l')
    (hneutral : NoNeutral l') (hlink : .linked ∉ l') (hacq : acquisitions l' = [])
    (hkeep : ∀ proof, s.Stopping proof → s'.Stopping proof) : s'.Neutralized (l ++ l') := by
  obtain ⟨before, n, between, after, rest, proof, rfl, hoff, hbt, haft, hn, hl, hacqs, hstop⟩ := h
  refine ⟨before, n, between, after ++ l', rest, proof, by simp, hoff, hbt, fun c hc => ?_, fun c hc => ?_,
    fun hm => ?_, by simp [hacq, hacqs], hkeep proof hstop⟩
  · rcases List.mem_append.1 hc with hc | hc
    exacts [haft c hc, hon c hc]
  · rcases List.mem_append.1 hc with hc | hc
    exacts [hn c hc, hneutral c hc]
  · rcases List.mem_append.1 hm with hm | hm
    exacts [hl hm, hlink hm]

/-- One more sample joins the stop proof, starts a new one or ends it. -/
theorem Neutralized.sample (h : s.Neutralized l) (hacq : Acquisition t l s) (hnow : 0 ≤ now) (ht : t ≤ now)
    {x : Sample} (hx : ¬ s.Ignores x) : (s.sample x now).Neutralized (l ++ [.acquired ⟨x, now⟩]) := by
  obtain ⟨before, n, between, after, rest, proof, rfl, hoff, hbt, haft, hneut, hlink, hacqs, hstop⟩ := h
  have hbuild : ∀ rest' proof', acquisitions after ++ [⟨x, now⟩] = rest' ++ proof' →
      (s.sample x now).Stopping proof' → (s.sample x now).Neutralized
        (before ++ .emitted n :: (between ++ .acked n :: after) ++ [.acquired ⟨x, now⟩]) := by
    intro rest' proof' hsplit hp
    refine ⟨before, n, between, after ++ [.acquired ⟨x, now⟩], rest', proof', by simp, hoff, hbt,
      fun c hm => haft c (by simpa using hm), fun c hm => hneut c (by simpa using hm), by simpa using hlink, ?_, hp⟩
    rw [acquisitions_append]; exact hsplit
  by_cases hcounts : s.Counts x now
  · by_cases hnew : s.Broken x now ∨ s.stopSince < 0
    · refine hbuild (acquisitions after) [⟨x, now⟩] rfl (.first hx hnow hcounts (hnew.imp_right fun hs => ?_))
      exact ⟨hs, by simpa [hs] using hstop.since⟩
    · obtain ⟨hb, hs⟩ := not_or.1 hnew
      refine hbuild rest (proof ++ [⟨x, now⟩]) (by simp [hacqs]) (hstop.more hx hcounts hb hs fun a ha => ?_)
      have hlast : (sinceLink (before ++ .emitted n :: (between ++ .acked n :: after))).getLast? = some a := by
        have hl : before ++ .emitted n :: (between ++ .acked n :: after) =
            (before ++ .emitted n :: (between ++ [.acked n])) ++ after := by simp
        rw [hl, sinceLink_append _ hlink, hacqs, ← List.append_assoc, List.getLast?_append, ha, Option.some_or]
      obtain ⟨-, -, -, hreceipt, hpos⟩ := hacq.last a hlast
      have hle := hacq.receipt
      have hgap : ¬ (s.sampleReceipt ≥ 0 ∧ now - s.sampleReceipt > s.config.1.freshnessMs) :=
        fun hg => hb (.inr hg)
      refine ⟨hacq.distinct_next hx hlast, ?_, ?_⟩
      · show a.receipt ≤ now; omega
      · show now - a.receipt ≤ _
        rw [hreceipt] at hpos ⊢
        by_contra hfresh
        exact hgap ⟨hpos, by omega⟩
  · refine hbuild (acquisitions after ++ [⟨x, now⟩]) [] (by simp) (.start ?_ ?_) <;>
      rw [sample_eq hx now] <;> simp [hcounts]

namespace Interlock

theorem init (config : ValidConfig) : Interlock 0 [] { config } :=
  ⟨Int.le_refl 0, ⟨List.isChain_nil, by simp, by simp⟩, Rep.init config, by simp, by simp⟩

theorem mono {t' : Int} (ht : t ≤ t') (h : Interlock t l s) : Interlock t' l s :=
  ⟨Int.le_trans h.start ht, h.acquisition.mono ht, h.rep, h.pending, h.done⟩

theorem quiet (h : Interlock t l s) (hq : s.Quiet s') (hrep : Rep (lastEmitted l) (lastAcked l) s') :
    Interlock t l s' := by
  refine ⟨h.start, ?_, hrep, fun n hn hoff => ?_, fun hc hf hfl => ?_⟩
  · have hacq : Acquisition t (l ++ []) s' :=
      h.acquisition.congr hq.stamp hq.source hq.count hq.receipt (by simp) rfl
    simpa using hacq
  · rcases hq.flight with hi | hi
    · rw [hi] at hn; cases hn
    · exact h.pending n (hi ▸ hn) hoff
  · rcases hq.kept with hu | hft | ⟨hc', hf', hi', hsince, hsamples, hconfig⟩
    · rw [hu] at hc; cases hc
    · rw [hft] at hf; cases hf
    · have hdone : s'.Neutralized (l ++ []) :=
        (h.done (hc' ▸ hc) (hf' ▸ hf) (hi' ▸ hfl)).extend (by simp [NoOn]) (by simp [NoNeutral]) (by simp) rfl
          fun _ hp => hp.congr hq.source hsince hsamples hconfig
      simpa using hdone

theorem linked (h : Interlock t l s) (hrep : Rep (lastEmitted l) (lastAcked l) s') (hr : s'.sampleReceipt = -1)
    (hi : s'.inFlight = none) (hc : s'.confirmed = .unknown)
    (hlast : lastEmitted (l ++ [.linked]) = lastEmitted l) (hack : lastAcked (l ++ [.linked]) = lastAcked l) :
    Interlock t (l ++ [.linked]) s' := by
  refine ⟨h.start, ⟨by simp, by simp, ?_⟩, by rw [hlast, hack]; exact hrep, by simp [hi], by simp [hc]⟩
  have := h.start
  omega

theorem sample (h : Interlock t l s) {x : Sample} (ht : t ≤ now) (hx : ¬ s.Ignores x) :
    Interlock now (l ++ [.acquired ⟨x, now⟩]) (s.sample x now) := by
  have hnow : 0 ≤ now := Int.le_trans h.start ht
  have hrep := (h.rep.sample x now)
  have heq := sample_eq hx now
  refine ⟨hnow, h.acquisition.sample hnow hx, ?_, fun n hn hoff => ?_, fun hc hf hfl => ?_⟩
  · simpa [lastEmitted, lastAcked, Event.emitted?, Event.acked?] using hrep
  · rw [heq] at hn
    obtain ⟨before, between, rfl, hon⟩ := h.pending n hn hoff
    exact ⟨before, between ++ [.acquired ⟨x, now⟩], by simp, fun c hm => hon c (by simpa using hm)⟩
  · rw [heq] at hc hf hfl
    exact (h.done hc hf hfl).sample h.acquisition hnow ht hx

/-- A command returned: an ON ends what `done` says, a neutral starts what `pending` says. -/
theorem emit (h : Interlock t l s) (hi : s.inFlight = none) {target : Direction} (hknown : target ≠ .unknown)
    (hg : s.Grants target now) {c : Command} (hc : c = ({ s with queuedNeutral := false }.emit target now).2) :
    Interlock t (l ++ [.emitted c]) ({ s with queuedNeutral := false }.emit target now).1 := by
  have hlast : lastEmitted (l ++ [.emitted c]) = some c := by simp [lastEmitted, Event.emitted?]
  have hack : lastAcked (l ++ [.emitted c]) = lastAcked l := by simp [lastAcked, Event.acked?]
  have hrep := h.rep.emit hknown hg
  rw [← hc] at hrep
  have hlink : Event.linked ∉ [Event.emitted c] := by simp
  have hacq : Acquisition t (l ++ [.emitted c]) ({ s with queuedNeutral := false }.emit target now).1 := by
    refine h.acquisition.congr ?_ ?_ ?_ ?_ hlink ?_ <;> rfl
  refine ⟨h.start, hacq, by rw [hlast, hack]; exact hrep, fun n hn hoff => ?_, fun hconf hf hfl => ?_⟩
  · obtain rfl : c = n := by rw [hc]; exact Option.some.inj hn
    exact ⟨l, [], rfl, by simp [NoOn]⟩
  · have hoff : c.direction = .off := hfl c (by rw [hc]; rfl)
    have hno : NoOn [.emitted c] := fun d hd => by
      obtain rfl : d = c := by simpa using hd
      simp [hoff, Direction.IsOn]
    exact (h.done hconf hf (by simp [hi])).extend hno (by simp [NoNeutral]) hlink rfl
      fun _ hp => hp.congr rfl rfl rfl rfl

theorem acked_off (h : Interlock t l s) {n : Command} (hn : s.inFlight = some n) (hoff : n.direction = .off)
    (hrep : Rep (lastEmitted (l ++ [.acked n])) (lastAcked (l ++ [.acked n])) s')
    (hacq : Acquisition t (l ++ [.acked n]) s') (hi : s'.inFlight = none) (hsince : s'.stopSince = -1)
    (hsamples : s'.stopSamples = 0) : Interlock t (l ++ [.acked n]) s' := by
  obtain ⟨before, between, rfl, hon⟩ := h.pending n hn hoff
  refine ⟨h.start, hacq, hrep, by simp [hi], fun _ _ _ => ?_⟩
  exact ⟨before, n, between, [], [], [], by simp, hoff, hon, by simp [NoOn], by simp [NoNeutral], by simp,
    by simp, .start (by omega) hsamples⟩

theorem complete (h : Interlock t l s) (token : Nat) (accepted : Bool) :
    Interlock t (l ++ s.observed (.complete token accepted now)) (s.complete token accepted now) := by
  have hrep := h.rep.step (.complete token accepted now)
  obtain ⟨he, hno⟩ | ⟨c, hc, htok, ⟨rfl, he⟩ | ⟨rfl, hoff, he⟩ | ⟨rfl, hon, he⟩⟩ :=
    complete_cases s token accepted now
  · have hobs : s.observed (.complete token accepted now) = [] := by
      cases accepted with
      | false => rfl
      | true => cases hi : s.inFlight <;> simp [observed, hi, hno]
    rw [hobs, List.append_nil, he]; exact h
  · rw [show s.observed (.complete token false now) = [] from rfl, List.append_nil] at hrep ⊢
    simp only [apply] at hrep
    rw [he] at hrep ⊢
    exact h.quiet (.of_latched (drop_fail_latched s _)) hrep
  all_goals
    have hobs : s.observed (.complete token true now) = [.acked c] := by simp [observed, hc, htok]
    rw [hobs] at hrep ⊢
    simp only [apply] at hrep
    rw [he] at hrep ⊢
    have hlink : Event.linked ∉ [Event.acked c] := by simp
  · refine h.acked_off hc hoff hrep ?_ rfl rfl rfl
    refine h.acquisition.congr ?_ ?_ ?_ ?_ hlink ?_ <;> rfl
  · refine ⟨h.start, ?_, hrep, by simp, fun hconf => absurd hconf hon⟩
    refine h.acquisition.congr ?_ ?_ ?_ ?_ hlink ?_ <;> rfl

theorem tick (h : Interlock t l s) : Interlock t l (s.tick now) := h.quiet .tick (h.rep.tick now)

theorem step (h : Interlock t l s) (op : Op) (ht : t ≤ op.now) :
    Interlock op.now (l ++ s.observed op) (s.apply op) := by
  have hrep := h.rep.step op
  have hmono := h.mono ht
  have hquiet : s.observed op = [] → s.Quiet (s.apply op) →
      Interlock op.now (l ++ s.observed op) (s.apply op) := fun hobs hq => by
    rw [hobs, List.append_nil] at hrep ⊢
    exact hmono.quiet hq hrep
  cases op with
  | connection connected now =>
    rcases connection_cases s connected now with ⟨heq, he⟩ | ⟨hne, he⟩
    · exact hquiet (by simp [observed, heq]) (by simp only [apply, he]; exact .refl)
    · have hobs : s.observed (.connection connected now) = [.linked] := by simp [observed, hne]
      rw [hobs]
      simp only [apply, he]
      exact hmono.linked (Rep.forceOff now) rfl rfl rfl (by simp [lastEmitted, Event.emitted?])
        (by simp [lastAcked, Event.acked?])
  | permission allowed now => exact hquiet rfl .permission
  | request direction now => exact hquiet rfl .request
  | forceOff now => exact hquiet rfl .forceOff
  | serviceTimeout now => exact hquiet rfl .serviceTimeout
  | sample x now =>
    by_cases hx : s.Ignores x
    · refine hquiet (by simp [observed, hx]) ?_
      simp only [apply, BladeControl.sample, if_pos hx]; exact .refl
    · simp only [observed, if_neg hx]; exact h.sample ht hx
  | tick now => exact hquiet rfl .tick
  | next now =>
    rcases next_cases s now with ⟨he, -⟩ | ⟨hi, target, hknown, hg, he⟩
    · exact hquiet (by simp [observed, he]) (by simp only [apply, he]; exact .tick)
    · have hobs : s.observed (.next now) =
          [.emitted ({ s.tick now with queuedNeutral := false }.emit target now).2] := by simp [observed, he]
      rw [hobs]
      simp only [apply, he]
      exact hmono.tick.emit hi hknown hg rfl
  | complete token accepted now => exact hmono.complete token accepted
  | output pwmValue now => exact hquiet rfl .output

end Interlock

/-- What the events must show when an ON leaves at `now`: after the last ON a neutral was returned and its
acceptance applied, and the samples taken since the most recent such acceptance end in a stop proof. -/
def Interlocked (config : Config) (now : Int) (l : List Event) : Prop :=
  ∃ before n between after rest proof, l = before ++ .emitted n :: (between ++ .acked n :: after) ∧
    n.direction = .off ∧ NoOn between ∧ NoOn after ∧ NoNeutral after ∧
    acquisitions after = rest ++ proof ∧ StopProof config now proof ∧
    -- consecutive samples of the proof were consecutive on one link
    acquisitions after <:+ sinceLink l ∧ (sinceLink l).IsChain Distinct

/-- Whenever `next` returns FWD or REV, the run so far shows the interlock. -/
theorem start_interlock (config : ValidConfig) (ops : List Op) (now : Int)
    (hnonneg : ∀ op ∈ ops, 0 ≤ op.now) (hnow : 0 ≤ now) (hsorted : ops.Pairwise fun a b => a.now ≤ b.now)
    (hlast : ∀ op ∈ ops, op.now ≤ now) (c : Command) (hc : ((reach config ops).next now).2 = some c)
    (hon : c.direction.IsOn) : Interlocked config.1 now (trace config ops) := by
  have h : Interlock now (trace config ops) (reach config ops) :=
    Machine.timed_history Op.now (fun _ _ _ _ ht h => h.mono ht) (fun _ _ _ op ht h => h.step op ht)
      (Interlock.init config) hnow hnonneg hsorted hlast
  have htick : Interlock now (trace config ops) ((reach config ops).tick now) := h.tick
  rcases next_cases (reach config ops) now with ⟨he, -⟩ | ⟨hi, target, -, hg, he⟩
  · rw [he] at hc; cases hc
  rw [he] at hc
  obtain rfl := Option.some.inj hc
  rcases hg with ⟨-, rfl⟩ | ⟨-, hf, -, -, -, hconf, hstop, -⟩
  · rcases hon with hd | hd <;> cases hd
  obtain ⟨before, n, between, after, rest, proof, htrace, hoff, hbt, haft, hneut, hlink, hacqs, hproof⟩ :=
    htick.done hconf hf (by simp [hi])
  have hsince : sinceLink (trace config ops) =
      sinceLink (before ++ .emitted n :: (between ++ [.acked n])) ++ acquisitions after := by
    rw [← sinceLink_append _ hlink, htrace]; simp
  refine ⟨before, n, between, after, rest, proof, htrace, hoff, hbt, haft, hneut, hacqs, ?_,
    ⟨_, hsince.symm⟩, h.acquisition.distinct⟩
  have hsp := hproof.stopProof hstop fun a ha => (htick.acquisition.last a (by
    rw [hsince, hacqs, ← List.append_assoc, List.getLast?_append, ha, Option.some_or])).2.2.2.1
  rwa [tick_config, config_reach] at hsp

theorem start_interlock_forward : Interlocked defaultConfig.1 1000 (trace defaultConfig readyRun) :=
  start_interlock defaultConfig readyRun 1000 (by decide) (by decide) (by decide) (by decide)
    ⟨3, 3, 1450, .forward⟩ (by decide +kernel) (by decide)

end BladeControl
end MowgliMavros
