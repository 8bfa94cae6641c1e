import MowgliMavros.SessionAttribution
import MowgliMavros.SessionConfirmed
import MowgliMavros.SessionNext

/-!
# The session controller and an FCU that obeys

`SessionLoop` is the controller together with an FCU that executes every command it is handed, in order, and
accepts it: the FCU's own mode and arming, the commands on their way to it and the replies on their way back.
Executions, replies, reports of the FCU state and the drives of the controller come in any order. Once the
demand stands, three more commands are enough, and when nothing is left to do the session is ready
(`session_converges`).
-/

namespace MowgliMavros
open FcuSessionController (Command Kind)

structure SessionLoop where
  session : FcuSessionController := {}
  mode : String
  armed : Bool
  sent : List Command := []
  replies : List Nat := []
deriving DecidableEq, Repr

namespace SessionLoop

inductive Action
  | demand (mode : String) (arm safetyDisarm : Bool)
  | drive (now : Int) (modeService armService allowArm : Bool)
  | execute
  | reply (now : Int)
  | report
deriving DecidableEq, Repr

variable (l : SessionLoop)

def execute : SessionLoop :=
  match l.sent with
  | [] => l
  | c :: rest => { l with
      sent := rest
      replies := l.replies ++ [c.serial]
      mode := if c.kind = .mode then c.mode else l.mode
      armed := if c.kind = .arm then c.arm else l.armed }

def reply (now : Int) : SessionLoop :=
  match l.replies with
  | [] => l
  | serial :: rest => { l with session := l.session.complete serial true now, replies := rest }

def report : SessionLoop := { l with session := l.session.observe true l.armed l.mode }

def drive (now : Int) (modeService armService allowArm : Bool) : SessionLoop × Option Command :=
  let r := l.session.next now modeService armService allowArm
  ({ l with session := r.1, sent := l.sent ++ r.2.toList }, r.2)

def machine : Machine SessionLoop Action Command where
  step l
    | .demand mode arm safetyDisarm => ({ l with session := l.session.demand mode arm safetyDisarm }, [])
    | .drive now modeService armService allowArm =>
      ((l.drive now modeService armService allowArm).1, (l.drive now modeService armService allowArm).2.toList)
    | .execute => (l.execute, [])
    | .reply now => (l.reply now, [])
    | .report => (l.report, [])

/-- No deadline passes, and a safety demand wants DISARM. -/
def Obeys (l : SessionLoop) : Action → Prop
  | .demand _ arm safetyDisarm => safetyDisarm = true → arm = false
  | .drive now _ _ _ | .reply now => ¬ l.session.Expires now
  | .execute | .report => True

/-- The demand stands. -/
def Action.Stands : Action → Prop
  | .demand _ _ _ => False
  | _ => True

instance (a : Action) : Decidable (l.Obeys a) :=
  match a with
  | .demand .. => inferInstanceAs (Decidable (_ → _))
  | .drive .. | .reply _ => inferInstanceAs (Decidable (¬ (_ ∧ _)))
  | .execute | .report => inferInstanceAs (Decidable True)

instance (a : Action) : Decidable a.Stands :=
  match a with
  | .demand .. => inferInstanceAs (Decidable False)
  | .drive .. | .execute | .reply _ | .report => inferInstanceAs (Decidable True)

/-- The controller has seen the FCU as it is. -/
def Seen : Prop := l.session.connected = true ∧ l.session.mode = l.mode ∧ l.session.armed = l.armed

instance : Decidable l.Seen := inferInstanceAs (Decidable (_ ∧ _))

/-- The action does something. -/
def useful (l : SessionLoop) : Action → Bool
  | .demand _ _ _ => false
  | .drive now modeService armService allowArm => (l.drive now modeService armService allowArm).2.isSome
  | .execute => l.sent ≠ []
  | .reply _ => l.replies ≠ []
  | .report => !decide l.Seen

/-! ### What is under way -/

/-- The FCU is as the command wants it. -/
def Did (c : Command) : Prop :=
  match c.kind with
  | .mode => l.mode = c.mode
  | .arm => l.armed = c.arm

/-- What an obedient FCU keeps: the pending command is the last one on its way or has been executed, its reply is on
its way or has come, and it stays pending while the controller has not seen its effect. -/
structure UnderWay (l : SessionLoop) : Prop where
  wanted : l.session.safetyDisarm = true → l.session.wantedArm = false
  healthy : l.session.modeFailed = false ∧ l.session.armFailed = false
  ordered : (l.replies ++ l.sent.map (·.serial)).Pairwise (· < ·)
  bound : ∀ serial ∈ l.replies ++ l.sent.map (·.serial), serial ≤ l.session.serial
  last : ∀ c, l.session.pending = some c → (∃ stale, l.sent = stale ++ [c]) ∨ l.sent = [] ∧ l.Did c
  answered : ∀ c, l.session.pending = some c → l.session.acked = false → c ∈ l.sent ∨ c.serial ∈ l.replies
  acked : ∀ c, l.session.pending = some c → l.session.acked = true → l.sent = [] ∧ ¬ l.session.Confirmed c

/-! ### What the controller hands out -/

section Issued
open FcuSessionController
variable {s : FcuSessionController} {c : Command} {now : Int}

/-- Where nothing failed, a command is handed out for what is not as wanted. -/
structure Issued (s s' : FcuSessionController) (c : Command) : Prop where
  idle : s.pending = none
  pending : s'.pending = some c
  fresh : c.serial = s.serial + 1 ∧ s'.serial = s.serial + 1 ∧ s'.acked = false
  mode : c.kind = .mode → c.mode = s.wantedMode ∧ s.mode ≠ s.wantedMode ∧ s'.forceDisarm = s.forceDisarm
  arm : c.kind = .arm → c.arm = s.wantedArm ∧
    (s.safetyDisarm = true → (s.forceDisarm = true ∨ s.armed = true) ∧ s'.forceDisarm = false) ∧
    (s.safetyDisarm = false → s.armed ≠ s.wantedArm)
  healthy : s'.modeFailed = s.modeFailed ∧ s'.armFailed = s.armFailed

theorem next_cases (hwanted : s.safetyDisarm = true → s.wantedArm = false) (hlive : ¬ s.Expires now)
    (modeService armService allowArm : Bool) :
    s.next now modeService armService allowArm = (s, none) ∨
      ∃ s' c, s.next now modeService armService allowArm = (s', some c) ∧ s'.view = s.view ∧ Issued s s' c := by
  unfold FcuSessionController.next
  rw [tick_live hlive]
  by_cases hurgent : s.Urgent
  · rcases issue_cases s now modeService armService allowArm with he | ⟨hconn, hidle, -⟩
    · exact .inl he
    cases armService with
    | false =>
      obtain ⟨hs, hforce, hf⟩ := hurgent
      exact .inl (by simp [issue, hconn, hidle, hs, hforce, hf])
    | true =>
      rw [issue_urgent hconn hidle hurgent]
      refine .inr ⟨_, _, rfl, rfl, hidle, rfl, ⟨rfl, rfl, rfl⟩, ?_, fun _ => ?_, rfl, rfl⟩
      · rintro ⟨⟩
      refine ⟨(hwanted hurgent.1).symm, fun _ => ⟨hurgent.2.1, rfl⟩, fun hs => ?_⟩
      exact absurd hurgent.1 (by simp [hs])
  · rcases issue_cases s now modeService armService allowArm with he | ⟨-, hidle, kind, arm, force, hdue, he⟩
    · exact .inl he
    rw [he]
    refine .inr ⟨_, _, rfl, rfl, hidle, rfl, ⟨rfl, rfl, rfl⟩, ?_, ?_, rfl, rfl⟩
    · intro hk
      obtain rfl : kind = .mode := hk
      exact ⟨rfl, hdue.2.1, hdue.2.2.2⟩
    · intro hk
      obtain rfl : kind = .arm := hk
      obtain ⟨hf, ⟨hu, -⟩ | ⟨hne, harm, -⟩⟩ := hdue
      · exact absurd hu hurgent
      · refine ⟨harm, fun hs => ?_, fun _ => hne⟩
        have harmed : s.armed = true := by simpa [hwanted hs] using hne
        exact absurd ⟨hs, .inr harmed, hf⟩ hurgent

theorem complete_live {serial : Nat} (hlive : ¬ s.Expires now) :
    s.complete serial true now = if s.current serial then { s with acked := true }.settle else s := by
  unfold complete
  rw [tick_live hlive]
  by_cases hcurrent : s.current serial = true
  · rw [if_neg (not_not.2 hcurrent), if_neg (not_not.2 rfl), if_pos hcurrent]
  · rw [if_pos hcurrent, if_neg hcurrent]

/-- What settling leaves pending has not been seen. -/
theorem settle_open (hc : s.settle.pending = some c) :
    s.settle = s ∧ s.pending = some c ∧ (s.acked = true → ¬ s.Confirmed c) := by
  rcases settle_cases s with he | ⟨_, _, -, -, -, he⟩
  · rw [he] at hc
    refine ⟨he, hc, fun hacked hconfirmed => ?_⟩
    have hnone : s.settle.pending = none := by simp [settle, hc, hacked, hconfirmed]
    rw [he, hc] at hnone
    cases hnone
  · rw [he] at hc
    cases hc

theorem settle_rest : s.settle.modeFailed = s.modeFailed ∧ s.settle.armFailed = s.armFailed ∧
    s.settle.serial = s.serial ∧ s.settle.forceDisarm = s.forceDisarm := by
  rcases settle_cases s with he | ⟨_, _, -, -, -, he⟩ <;> rw [he] <;> exact ⟨rfl, rfl, rfl, rfl⟩

end Issued

namespace UnderWay
variable {l}

theorem start (mode : String) (armed : Bool) : UnderWay { mode := mode, armed := armed } where
  wanted _ := rfl
  healthy := ⟨rfl, rfl⟩
  ordered := List.Pairwise.nil
  bound := by simp
  last _ hc := by cases hc
  answered _ hc := by cases hc
  acked _ hc := by cases hc

/-- Only the pending command and the demand change. -/
theorem shrink (h : UnderWay l) {s : FcuSessionController}
    (hwanted : s.safetyDisarm = true → s.wantedArm = false)
    (hhealthy : s.modeFailed = false ∧ s.armFailed = false) (hserial : s.serial = l.session.serial)
    (hpending : s.pending = none ∨ s.pending = l.session.pending ∧ s.acked = l.session.acked ∧
      s.mode = l.session.mode ∧ s.armed = l.session.armed) : UnderWay { l with session := s } where
  wanted := hwanted
  healthy := hhealthy
  ordered := h.ordered
  bound := hserial ▸ h.bound
  last c hc := by
    rcases hpending with hnone | ⟨hsame, -⟩
    · exact absurd (hnone.symm.trans hc) nofun
    · exact h.last c (hsame ▸ hc)
  answered c hc hacked := by
    rcases hpending with hnone | ⟨hsame, hacked', -⟩
    · exact absurd (hnone.symm.trans hc) nofun
    · exact h.answered c (hsame ▸ hc) (hacked' ▸ hacked)
  acked c hc hacked := by
    rcases hpending with hnone | ⟨hsame, hacked', hmode, harmed⟩
    · exact absurd (hnone.symm.trans hc) nofun
    · obtain ⟨hsent, hopen⟩ := h.acked c (hsame ▸ hc) (hacked' ▸ hacked)
      refine ⟨hsent, ?_⟩
      unfold FcuSessionController.Confirmed at hopen ⊢
      dsimp only
      rwa [hmode, harmed]

theorem demand (h : UnderWay l) {mode : String} {arm safetyDisarm : Bool}
    (hsafe : safetyDisarm = true → arm = false) :
    UnderWay { l with session := l.session.demand mode arm safetyDisarm } := by
  unfold FcuSessionController.demand
  split
  · exact h
  · refine h.shrink hsafe ⟨rfl, rfl⟩ rfl ?_
    cases safetyDisarm && !l.session.safetyDisarm with
    | true => exact .inl rfl
    | false => exact .inr ⟨rfl, rfl, rfl, rfl⟩

theorem drive (h : UnderWay l) {now : Int} {modeService armService allowArm : Bool}
    (hlive : ¬ l.session.Expires now) : UnderWay (l.drive now modeService armService allowArm).1 := by
  unfold SessionLoop.drive
  rcases next_cases h.wanted hlive modeService armService allowArm with he | ⟨s', c, he, hview, hissued⟩ <;> rw [he]
  · simpa using h
  obtain ⟨hwm, hwa, hws⟩ := FcuSessionController.view_wanted hview
  have hserial := hissued.fresh.1
  constructor
  · show s'.safetyDisarm = true → s'.wantedArm = false
    rw [hws, hwa]
    exact h.wanted
  · show s'.modeFailed = false ∧ s'.armFailed = false
    rw [hissued.healthy.1, hissued.healthy.2]
    exact h.healthy
  · show (l.replies ++ (l.sent ++ [c]).map (·.serial)).Pairwise (· < ·)
    rw [List.map_append, ← List.append_assoc, List.pairwise_append]
    refine ⟨h.ordered, List.pairwise_singleton _ _, fun serial hmem serial' hmem' => ?_⟩
    obtain rfl := List.mem_singleton.1 hmem'
    have hle := h.bound serial hmem
    show serial < c.serial
    omega
  · show ∀ serial ∈ l.replies ++ (l.sent ++ [c]).map (·.serial), serial ≤ s'.serial
    rw [List.map_append, ← List.append_assoc, hissued.fresh.2.1]
    intro serial hmem
    rcases List.mem_append.1 hmem with hmem | hmem
    · exact Nat.le_succ_of_le (h.bound serial hmem)
    · obtain rfl := List.mem_singleton.1 hmem
      exact Nat.le_of_eq hserial
  · intro c' hc'
    obtain rfl : c = c' := Option.some.inj (hissued.pending.symm.trans hc')
    exact .inl ⟨l.sent, rfl⟩
  · intro c' hc' _
    obtain rfl : c = c' := Option.some.inj (hissued.pending.symm.trans hc')
    exact .inl (List.mem_append_right _ (List.mem_singleton_self _))
  · intro c' hc' hacked
    exact absurd hacked (by simp [hissued.fresh.2.2])

theorem execute (h : UnderWay l) : UnderWay l.execute := by
  unfold SessionLoop.execute
  split
  · exact h
  rename_i c₀ rest hsent
  have hlist : l.replies ++ [c₀.serial] ++ rest.map (·.serial) = l.replies ++ l.sent.map (·.serial) := by
    rw [hsent, List.map_cons, List.append_assoc, List.singleton_append]
  have hdid : ∀ c, c = c₀ → Did { l with
      sent := rest
      replies := l.replies ++ [c₀.serial]
      mode := if c₀.kind = .mode then c₀.mode else l.mode
      armed := if c₀.kind = .arm then c₀.arm else l.armed } c := by
    rintro c rfl
    unfold Did
    split <;> rename_i hk <;> simp [hk]
  constructor
  · exact h.wanted
  · exact h.healthy
  · exact hlist ▸ h.ordered
  · exact hlist ▸ h.bound
  · intro c hc
    rcases h.last c hc with ⟨stale, hstale⟩ | ⟨hnil, -⟩
    · rw [hsent] at hstale
      cases stale with
      | nil =>
        obtain ⟨rfl, rfl⟩ := List.cons.inj hstale
        exact .inr ⟨rfl, hdid _ rfl⟩
      | cons c' stale =>
        obtain ⟨rfl, hrest⟩ := List.cons.inj hstale
        exact .inl ⟨stale, hrest⟩
    · rw [hsent] at hnil
      cases hnil
  · intro c hc hacked
    rcases h.answered c hc hacked with hmem | hmem
    · rw [hsent] at hmem
      rcases List.mem_cons.1 hmem with rfl | hmem
      · exact .inr (List.mem_append_right _ (List.mem_singleton_self _))
      · exact .inl hmem
    · exact .inr (List.mem_append_left _ hmem)
  · intro c hc hacked
    obtain ⟨hnil, -⟩ := h.acked c hc hacked
    rw [hsent] at hnil
    cases hnil

/-- A reply to the pending command comes after its execution. -/
theorem replied (h : UnderWay l) {c : Command} (hc : l.session.pending = some c) (hreply : c.serial ∈ l.replies) :
    l.sent = [] ∧ l.Did c := by
  rcases h.last c hc with ⟨stale, hstale⟩ | hdone
  · have hordered := (List.pairwise_append.1 h.ordered).2.2 c.serial hreply c.serial (by simp [hstale])
    exact absurd hordered (Nat.lt_irrefl _)
  · exact hdone

/-- The session settles: what stays pending stays under way. -/
theorem settled (h : UnderWay l) {s : FcuSessionController} (replies : List Nat)
    (hwanted : s.wantedArm = l.session.wantedArm) (hsafety : s.safetyDisarm = l.session.safetyDisarm)
    (hhealthy : s.modeFailed = false ∧ s.armFailed = false)
    (hserial : s.serial = l.session.serial) (hpending : s.pending = l.session.pending)
    (hreplies : (replies ++ l.sent.map (·.serial)).Sublist (l.replies ++ l.sent.map (·.serial)))
    (hanswered : ∀ c, s.pending = some c → s.acked = false → c ∈ l.sent ∨ c.serial ∈ replies)
    (hacked : ∀ c, s.pending = some c → s.acked = true → l.sent = []) :
    UnderWay { l with session := s.settle, replies := replies } := by
  obtain ⟨hmodeFailed, harmFailed, hserial', -⟩ := settle_rest (s := s)
  have hview := FcuSessionController.view_wanted (FcuSessionController.settle_view (s := s))
  constructor
  · show s.settle.safetyDisarm = true → s.settle.wantedArm = false
    rw [hview.2.1, hview.2.2, hsafety]
    intro hs
    exact hwanted.trans (h.wanted hs)
  · exact ⟨hmodeFailed.trans hhealthy.1, harmFailed.trans hhealthy.2⟩
  · exact h.ordered.sublist hreplies
  · show ∀ serial ∈ _, serial ≤ s.settle.serial
    rw [hserial', hserial]
    exact fun serial hmem => h.bound serial (hreplies.subset hmem)
  · intro c hc
    obtain ⟨-, hc', -⟩ := settle_open hc
    exact h.last c (hpending ▸ hc')
  · intro c hc hno
    obtain ⟨hsame, hc', -⟩ := settle_open hc
    rw [hsame] at hno
    exact hanswered c hc' hno
  · intro c hc hyes
    obtain ⟨hsame, hc', hopen⟩ := settle_open hc
    have hyes' : s.acked = true := hsame ▸ hyes
    exact ⟨hacked c hc' hyes', hsame.symm ▸ hopen hyes'⟩

theorem reply (h : UnderWay l) {now : Int} (hlive : ¬ l.session.Expires now) : UnderWay (l.reply now) := by
  unfold SessionLoop.reply
  split
  · exact h
  rename_i serial rest hreplies
  have hsub : (rest ++ l.sent.map (·.serial)).Sublist (l.replies ++ l.sent.map (·.serial)) := by
    rw [hreplies, List.cons_append]
    exact List.sublist_cons_self _ _
  rw [complete_live hlive]
  split
  · rename_i hcurrent
    refine h.settled (s := { l.session with acked := true }) rest rfl rfl h.healthy rfl rfl hsub ?_ fun c hc _ => ?_
    · rintro c - ⟨⟩
    · have hserial : c.serial = serial := by
        simpa [FcuSessionController.current, show l.session.pending = some c from hc] using hcurrent
      exact (h.replied hc (by simp [hreplies, hserial])).1
  · rename_i hother
    refine ⟨h.wanted, h.healthy, h.ordered.sublist hsub, fun n hn => h.bound n (hsub.subset hn), h.last, ?_, h.acked⟩
    intro c hc hacked
    refine (h.answered c hc hacked).imp_right fun hmem => ?_
    rw [hreplies] at hmem
    refine (List.mem_cons.1 hmem).resolve_left fun hserial => hother ?_
    simp [FcuSessionController.current, show l.session.pending = some c from hc, hserial]

theorem report (h : UnderWay l) : UnderWay l.report := by
  unfold SessionLoop.report
  rw [FcuSessionController.observe_eq]
  have hpending : (l.session.seen true l.armed l.mode).pending = l.session.pending := rfl
  refine h.settled l.replies rfl rfl ?_ rfl hpending (List.Sublist.refl _) h.answered fun c hc hacked => ?_
  · simp [FcuSessionController.seen, h.healthy.1, h.healthy.2]
  · exact (h.acked c hc hacked).1

theorem step (h : UnderWay l) {a : Action} (ha : l.Obeys a) : UnderWay (machine.step l a).1 := by
  cases a with
  | demand mode arm safetyDisarm => exact h.demand ha
  | drive now modeService armService allowArm => exact h.drive ha
  | execute => exact h.execute
  | reply now => exact h.reply ha
  | report => exact h.report

end UnderWay

/-! ### What is left to command -/

/-- The mode, or the arming, is as it is wanted. -/
def Fits (s : FcuSessionController) (mode : String) (armed : Bool) : Kind → Prop
  | .mode => mode = s.wantedMode
  | .arm => armed = s.wantedArm

def Wanted (s : FcuSessionController) (c : Command) : Prop := c.Asks s.wantedMode s.wantedArm

/-- The pending command is of this kind, and is still wanted. -/
def Awaits (kind : Kind) : Prop := ∃ c, l.session.pending = some c ∧ c.kind = kind ∧ Wanted l.session c

/-- The FCU is as wanted, is seen so, and nothing on its way to it changes that. -/
def Rests (kind : Kind) : Prop :=
  Fits l.session l.session.mode l.session.armed kind ∧ Fits l.session l.mode l.armed kind ∧
    ∀ c ∈ l.sent, c.kind = kind → Wanted l.session c

/-- No arming can be seen that was not seen yet. -/
def Calm : Prop :=
  (∀ c ∈ l.sent, c.kind = .arm → Wanted l.session c) ∧ (l.armed = true → l.session.armed = true)

/-- No further command of this kind is handed out while the demand stands. -/
def Done (kind : Kind) : Prop :=
  (l.Awaits kind ∨ l.Rests kind) ∧
    (kind = .arm → l.session.safetyDisarm = true → l.Calm ∧ l.session.forceDisarm = false)

/-- A safety demand hands out no third DISARM. -/
def Once : Prop := l.session.safetyDisarm = true → l.Awaits .arm ∨ l.Calm

open Classical in
noncomputable def owed (p : Prop) : Nat := if p then 0 else 1

/-- How many commands the standing demand may still hand out. -/
noncomputable def allowance : Nat := owed (l.Done .mode) + owed (l.Done .arm) + owed l.Once

section Allowance
variable {l} {l' : SessionLoop} {kind : Kind}

theorem wanted_congr {s s' : FcuSessionController} (hview : s'.view = s.view) (c : Command) :
    Wanted s' c ↔ Wanted s c := by
  obtain ⟨hmode, harm, -⟩ := FcuSessionController.view_wanted hview
  unfold Wanted
  rw [hmode, harm]

theorem fits_congr {s s' : FcuSessionController} (hview : s'.view = s.view) (mode : String) (armed : Bool) :
    Fits s' mode armed kind ↔ Fits s mode armed kind := by
  obtain ⟨hmode, harm, -⟩ := FcuSessionController.view_wanted hview
  cases kind
  · exact iff_of_eq (congrArg (mode = ·) hmode)
  · exact iff_of_eq (congrArg (armed = ·) harm)

theorem Rests.calm (h : l.Rests .arm) (hwanted : l.session.wantedArm = false) : l.Calm := by
  obtain ⟨-, harmed, hsent⟩ := h
  refine ⟨hsent, fun hyes => ?_⟩
  have hno : l.armed = false := harmed.trans hwanted
  rw [hno] at hyes
  cases hyes

/-- What is done stays done, and a third DISARM stays excluded. -/
structure Kept (l l' : SessionLoop) : Prop where
  done : ∀ kind, l.Done kind → l'.Done kind
  once : l.Once → l'.Once

theorem owed_le {p q : Prop} (h : p → q) : owed q ≤ owed p := by
  unfold owed
  by_cases hp : p
  · simp [hp, h hp]
  · rw [if_neg hp]
    split <;> omega

theorem owed_lt {p q : Prop} (hp : ¬ p) (hq : q) : owed q + 1 ≤ owed p := by
  simp [owed, hp, hq]

theorem owed_le_one (p : Prop) : owed p ≤ 1 := by
  unfold owed
  split <;> omega

theorem Kept.allowance (h : Kept l l') : l'.allowance ≤ l.allowance :=
  Nat.add_le_add (Nat.add_le_add (owed_le (h.done .mode)) (owed_le (h.done .arm))) (owed_le h.once)

theorem Kept.pays (h : Kept l l') (hpaid : (∃ kind, ¬ l.Done kind ∧ l'.Done kind) ∨ ¬ l.Once ∧ l'.Once) :
    l'.allowance + 1 ≤ l.allowance := by
  have hmode := owed_le (h.done .mode)
  have harm := owed_le (h.done .arm)
  have honce := owed_le h.once
  unfold SessionLoop.allowance
  rcases hpaid with ⟨kind, hno, hyes⟩ | ⟨hno, hyes⟩
  · have := owed_lt hno hyes
    cases kind <;> omega
  · have := owed_lt hno hyes
    omega

theorem Kept.intro (hsafety : l'.session.safetyDisarm = l.session.safetyDisarm)
    (hwanted : l'.session.safetyDisarm = true → l'.session.wantedArm = false)
    (hawaits : ∀ kind, l.Awaits kind → l'.Awaits kind ∨ l'.Rests kind)
    (hrests : ∀ kind, l.Rests kind → l'.Rests kind)
    (hcalm : l.session.safetyDisarm = true → l.Calm →
      l'.Calm ∧ (l.session.forceDisarm = false → l'.session.forceDisarm = false)) : Kept l l' where
  done kind h := by
    refine ⟨?_, fun hkind hs => ?_⟩
    · rcases h.1 with hawait | hrest
      · exact hawaits kind hawait
      · exact .inr (hrests kind hrest)
    · rw [hsafety] at hs
      obtain ⟨hc, hforce⟩ := h.2 hkind hs
      exact ⟨(hcalm hs hc).1, (hcalm hs hc).2 hforce⟩
  once h hs := by
    rw [hsafety] at hs
    rcases h hs with hawait | hc
    · rcases hawaits .arm hawait with hawait' | hrest
      · exact .inl hawait'
      · exact .inr (hrest.calm (hwanted (hsafety ▸ hs)))
    · exact .inr (hcalm hs hc).1

/-- The controller settles: its last command is done, and the FCU rests. -/
theorem kept_settle (hwanted : l.session.safetyDisarm = true → l.session.wantedArm = false)
    (hdone : ∀ c, l.session.pending = some c → l.session.acked = true → l.sent = [] ∧ l.Did c) :
    Kept l { l with session := l.session.settle } := by
  rcases FcuSessionController.settle_cases l.session with he | ⟨c, error, hc, hacked, hconfirmed, he⟩ <;> rw [he]
  · exact ⟨fun _ => id, id⟩
  obtain ⟨hsent, hdid⟩ := hdone c hc hacked
  refine .intro rfl hwanted (fun kind hawait => .inr ?_) (fun kind => id) fun _ hcalm => ⟨hcalm, id⟩
  obtain ⟨c', hc', rfl, hask⟩ := hawait
  obtain rfl : c = c' := Option.some.inj (hc.symm.trans hc')
  unfold Wanted FcuSessionController.Command.Asks at hask
  unfold FcuSessionController.Confirmed at hconfirmed
  unfold Did at hdid
  refine ⟨?_, ?_, by simp [hsent]⟩
  · show Fits l.session l.session.mode l.session.armed c.kind
    cases hk : c.kind <;> rw [hk] at hask hconfirmed
    · exact hconfirmed.trans hask
    · exact hconfirmed.trans hask
  · show Fits l.session l.mode l.armed c.kind
    cases hk : c.kind <;> rw [hk] at hask hdid
    · exact hdid.trans hask
    · exact hdid.trans hask

/-- Nothing changes but the acknowledgement and the replies. -/
theorem kept_acked (hwanted : l.session.safetyDisarm = true → l.session.wantedArm = false) (acked : Bool)
    (replies : List Nat) :
    Kept l { l with session := { l.session with acked := acked }, replies := replies } :=
  .intro rfl hwanted (fun _ => .inl) (fun _ => id) fun _ hcalm => ⟨hcalm, id⟩

theorem kept_seen (hwanted : l.session.safetyDisarm = true → l.session.wantedArm = false) :
    Kept l { l with session := l.session.seen true l.armed l.mode } := by
  refine .intro rfl hwanted (fun _ => .inl) (fun kind hrest => ?_) fun hs hcalm => ⟨⟨hcalm.1, id⟩, fun hforce => ?_⟩
  · exact ⟨hrest.2.1, hrest.2⟩
  · show (l.session.forceDisarm || (l.session.safetyDisarm && l.armed && !l.session.armed)) = false
    rw [hforce]
    cases harmed : l.armed with
    | false => simp
    | true => simp [hcalm.2 harmed]

theorem kept_execute (hwanted : l.session.safetyDisarm = true → l.session.wantedArm = false) : Kept l l.execute := by
  unfold SessionLoop.execute
  split
  · exact ⟨fun _ => id, id⟩
  rename_i c rest hsent
  have hc : c ∈ l.sent := by simp [hsent]
  have hrest : ∀ c ∈ rest, c ∈ l.sent := fun c hmem => by simp [hsent, hmem]
  refine .intro rfl hwanted (fun _ => .inl) (fun kind hrests => ?_) fun hs hcalm => ⟨⟨?_, ?_⟩, id⟩
  · obtain ⟨hseen, hfits, hall⟩ := hrests
    refine ⟨hseen, ?_, fun c' hmem => hall c' (hrest c' hmem)⟩
    have hask := hall c hc
    unfold Wanted FcuSessionController.Command.Asks at hask
    cases kind with
    | mode =>
      show (if c.kind = .mode then c.mode else l.mode) = l.session.wantedMode
      split
      · rename_i hk
        simpa [hk] using hask hk
      · exact hfits
    | arm =>
      show (if c.kind = .arm then c.arm else l.armed) = l.session.wantedArm
      split
      · rename_i hk
        simpa [hk] using hask hk
      · exact hfits
  · exact fun c' hmem => hcalm.1 c' (hrest c' hmem)
  · show (if c.kind = .arm then c.arm else l.armed) = true → l.session.armed = true
    split
    · rename_i hk
      have hask := hcalm.1 c hc hk
      unfold Wanted FcuSessionController.Command.Asks at hask
      rw [hk] at hask
      intro hyes
      have hno : c.arm = false := hask.trans (hwanted hs)
      rw [hno] at hyes
      cases hyes
    · exact hcalm.2

/-- A command that is handed out is paid for. -/
theorem drive_allowance (h : UnderWay l) {now : Int} (hlive : ¬ l.session.Expires now)
    (modeService armService allowArm : Bool) :
    (l.drive now modeService armService allowArm).2.toList.length +
      (l.drive now modeService armService allowArm).1.allowance ≤ l.allowance := by
  unfold SessionLoop.drive
  rcases next_cases h.wanted hlive modeService armService allowArm with he | ⟨s', c, he, hview, hissued⟩ <;> rw [he]
  · simp
  obtain ⟨hwm, hwa, hws⟩ := FcuSessionController.view_wanted hview
  obtain ⟨-, hsa, hsm⟩ := FcuSessionController.view_observed hview
  dsimp only [Option.toList_some]
  generalize hl' : ({ l with session := s', sent := l.sent ++ [c] } : SessionLoop) = l'
  have hnone : ∀ kind, ¬ l.Awaits kind := by
    rintro kind ⟨c', hc', -⟩
    exact absurd (hissued.idle.symm.trans hc') nofun
  have hask : Wanted l.session c := by
    unfold Wanted FcuSessionController.Command.Asks
    split
    · rename_i hk
      exact (hissued.mode hk).1
    · rename_i hk
      exact (hissued.arm hk).1
  have hawaits : l'.Awaits c.kind := by
    subst hl'
    exact ⟨c, hissued.pending, rfl, (wanted_congr hview c).2 hask⟩
  have hcalm : l.Calm → l'.Calm := by
    subst hl'
    rintro ⟨hsent, harmed⟩
    refine ⟨fun c' hmem hk => (wanted_congr hview c').2 ?_, fun hyes => hsa.trans (harmed hyes)⟩
    rcases List.mem_append.1 hmem with hmem | hmem
    · exact hsent c' hmem hk
    · exact List.mem_singleton.1 hmem ▸ hask
  have hkept : Kept l l' := by
    refine .intro (hl' ▸ hws) (hl' ▸ fun hs => hwa.trans (h.wanted (hws.symm.trans hs)))
      (fun kind hawait => absurd hawait (hnone kind)) (fun kind hrests => ?_)
      fun hs hc => ⟨hcalm hc, fun hforce => ?_⟩
    · subst hl'
      obtain ⟨hseen, hfits, hall⟩ := hrests
      refine ⟨?_, (fits_congr hview _ _).2 hfits, fun c' hmem hk => (wanted_congr hview c').2 ?_⟩
      · show Fits s' s'.mode s'.armed kind
        rw [hsm, hsa]
        exact (fits_congr hview _ _).2 hseen
      · rcases List.mem_append.1 hmem with hmem | hmem
        · exact hall c' hmem hk
        · exact List.mem_singleton.1 hmem ▸ hask
    · subst hl'
      cases hk : c.kind with
      | mode => exact (hissued.mode hk).2.2.trans hforce
      | arm => exact ((hissued.arm hk).2.1 hs).2
  have hundone : ¬ l.Done c.kind := by
    rintro ⟨hawait | ⟨hseen, -⟩, hurgent⟩
    · exact hnone _ hawait
    · cases hk : c.kind with
      | mode =>
        rw [hk] at hseen
        exact (hissued.mode hk).2.1 hseen
      | arm =>
        rw [hk] at hseen
        have harmed : l.session.armed = l.session.wantedArm := hseen
        cases hs : l.session.safetyDisarm with
        | false => exact (hissued.arm hk).2.2 hs harmed
        | true =>
          have hforce := (hurgent hk hs).2
          rcases ((hissued.arm hk).2.1 hs).1 with hf | ha
          · rw [hforce] at hf
            cases hf
          · rw [harmed, h.wanted hs] at ha
            cases ha
  have hpaid : (∃ kind, ¬ l.Done kind ∧ l'.Done kind) ∨ ¬ l.Once ∧ l'.Once := by
    by_cases hdone : l'.Done c.kind
    · exact .inl ⟨c.kind, hundone, hdone⟩
    refine .inr ⟨fun honce => hdone ⟨.inl hawaits, fun hk hs => ?_⟩, fun _ => .inl ?_⟩
    · have hs' : l.session.safetyDisarm = true := by
        subst hl'
        exact hws.symm.trans hs
      refine ⟨hcalm ((honce hs').resolve_left (hnone _)), ?_⟩
      subst hl'
      exact ((hissued.arm hk).2.1 hs').2
    · have hk : c.kind = .arm := by
        by_contra hmode
        exact hdone ⟨.inl hawaits, fun hk => absurd hk hmode⟩
      exact hk ▸ hawaits
  have hpays := hkept.pays hpaid
  show 1 + l'.allowance ≤ l.allowance
  omega

theorem allowance_le (l : SessionLoop) : l.allowance ≤ 3 := by
  have hmode := owed_le_one (l.Done .mode)
  have harm := owed_le_one (l.Done .arm)
  have honce := owed_le_one l.Once
  unfold allowance
  omega

/-- While the demand stands, the allowance pays for every command. -/
theorem step_allowance (h : UnderWay l) {a : Action} (ha : l.Obeys a) (hstands : a.Stands) :
    (machine.step l a).2.length + (machine.step l a).1.allowance ≤ l.allowance := by
  cases a with
  | demand mode arm safetyDisarm => exact hstands.elim
  | drive now modeService armService allowArm => exact drive_allowance h ha modeService armService allowArm
  | execute => exact (Nat.zero_add _).trans_le (kept_execute h.wanted).allowance
  | reply now =>
    refine (Nat.zero_add _).trans_le ?_
    show (l.reply now).allowance ≤ l.allowance
    unfold SessionLoop.reply
    split
    · exact Nat.le_refl _
    rename_i serial rest hreplies
    rw [complete_live ha]
    have hacked := kept_acked h.wanted l.session.acked rest
    split
    · rename_i hcurrent
      have hacked := (kept_acked h.wanted true rest).allowance
      refine Nat.le_trans (kept_settle (l := { l with
        session := { l.session with acked := true }, replies := rest }) h.wanted ?_).allowance hacked
      intro c hc _
      refine h.replied hc ?_
      have hserial : c.serial = serial := by
        simpa [FcuSessionController.current, show l.session.pending = some c from hc] using hcurrent
      simp [hreplies, hserial]
    · exact hacked.allowance
  | report =>
    refine (Nat.zero_add _).trans_le ?_
    show l.report.allowance ≤ l.allowance
    unfold SessionLoop.report
    rw [FcuSessionController.observe_eq]
    have hseen := (kept_seen h.wanted).allowance
    refine Nat.le_trans (kept_settle (l := { l with
      session := l.session.seen true l.armed l.mode }) h.wanted ?_).allowance hseen
    intro c hc hacked
    obtain ⟨hsent, -⟩ := h.acked c hc hacked
    refine ⟨hsent, ((h.last c hc).resolve_left ?_).2⟩
    rintro ⟨stale, hstale⟩
    rw [hsent] at hstale
    simp at hstale

end Allowance

/-! ### Convergence -/

section Convergence
variable {l} {a : Action}

/-- What the standing demand may still do: four steps a command, three of them once it is on its way, one for
each reply, and one report. -/
noncomputable def weight (l : SessionLoop) : Nat :=
  4 * l.allowance + 3 * l.sent.length + l.replies.length + owed l.Seen

theorem seen_congr {l' : SessionLoop} (hview : l'.session.view = l.session.view) (hmode : l'.mode = l.mode)
    (harmed : l'.armed = l.armed) : l'.Seen ↔ l.Seen := by
  obtain ⟨hc, ha, hm⟩ := FcuSessionController.view_observed hview
  unfold Seen
  rw [hc, ha, hm, hmode, harmed]

theorem report_seen (l : SessionLoop) : l.report.Seen := by
  obtain ⟨hc, ha, hm⟩ := FcuSessionController.view_observed
    (FcuSessionController.settle_view (s := l.session.seen true l.armed l.mode))
  unfold report Seen
  rw [FcuSessionController.observe_eq]
  exact ⟨hc, hm, ha⟩

theorem drive_weight (h : UnderWay l) {now : Int} {modeService armService allowArm : Bool}
    (hlive : ¬ l.session.Expires now) :
    (l.useful (.drive now modeService armService allowArm)).toNat +
      (l.drive now modeService armService allowArm).1.weight ≤ l.weight := by
  have hpays := drive_allowance h hlive modeService armService allowArm
  have hseen : (l.drive now modeService armService allowArm).1.Seen ↔ l.Seen :=
    seen_congr (FcuSessionController.next_view now modeService armService allowArm) rfl rfl
  have hsent : (l.drive now modeService armService allowArm).1.sent.length =
      l.sent.length + (l.drive now modeService armService allowArm).2.toList.length := List.length_append
  have hreplies : (l.drive now modeService armService allowArm).1.replies = l.replies := rfl
  have huseful : (l.drive now modeService armService allowArm).2.isSome.toNat =
      (l.drive now modeService armService allowArm).2.toList.length := by
    cases (l.drive now modeService armService allowArm).2 <;> rfl
  show (l.drive now modeService armService allowArm).2.isSome.toNat + _ ≤ _
  unfold weight
  rw [hseen, hreplies, hsent, huseful]
  omega

theorem execute_weight (h : UnderWay l) : (l.useful .execute).toNat + l.execute.weight ≤ l.weight := by
  have hkept := (kept_execute h.wanted).allowance
  have hseen := owed_le_one l.execute.Seen
  show (decide (l.sent ≠ [])).toNat + _ ≤ _
  cases hsent : l.sent with
  | nil =>
    have hsame : l.execute = l := by
      unfold execute
      rw [hsent]
    simp [hsame]
  | cons c rest =>
    have hrest : l.execute.sent = rest ∧ l.execute.replies = l.replies ++ [c.serial] := by
      unfold execute
      rw [hsent]
      exact ⟨rfl, rfl⟩
    unfold weight
    rw [hrest.1, hrest.2, hsent, List.length_append]
    simp only [ne_eq, reduceCtorEq, not_false_eq_true, decide_true, Bool.toNat_true, List.length_cons,
      List.length_nil]
    omega

theorem reply_weight (h : UnderWay l) {now : Int} (hlive : ¬ l.session.Expires now) :
    (l.useful (.reply now)).toNat + (l.reply now).weight ≤ l.weight := by
  have hkept := step_allowance h (a := .reply now) hlive trivial
  have hkept' : (l.reply now).allowance ≤ l.allowance := by simpa [machine] using hkept
  have hseen : (l.reply now).Seen ↔ l.Seen := by
    unfold reply
    split
    · rfl
    · exact seen_congr (FcuSessionController.complete_view _ _ _) rfl rfl
  have hlength : (decide (l.replies ≠ [])).toNat + (l.reply now).replies.length ≤ l.replies.length := by
    unfold reply
    split
    · rename_i hnil
      simp [hnil]
    · rename_i serial rest hreplies
      simp [hreplies]
      omega
  have hsent : (l.reply now).sent = l.sent := by
    unfold reply
    split <;> rfl
  show (decide (l.replies ≠ [])).toNat + _ ≤ _
  unfold weight
  rw [hseen, hsent]
  omega

theorem report_weight (h : UnderWay l) : (l.useful .report).toNat + l.report.weight ≤ l.weight := by
  have hkept := step_allowance h (a := .report) trivial trivial
  have hkept' : l.report.allowance ≤ l.allowance := by simpa [machine] using hkept
  have hnow : owed l.report.Seen = 0 := if_pos (report_seen l)
  have huseful : (!decide l.Seen).toNat = owed l.Seen := by
    by_cases hseen : l.Seen <;> simp [owed, hseen]
  show (!decide l.Seen).toNat + _ ≤ _
  unfold weight
  rw [hnow, huseful]
  show _ + (4 * l.report.allowance + 3 * l.sent.length + l.replies.length + 0) ≤ _
  omega

/-- Every useful step costs weight, and no other step adds any. -/
theorem step_weight (h : UnderWay l) (ha : l.Obeys a) (hstands : a.Stands) :
    (l.useful a).toNat + (machine.step l a).1.weight ≤ l.weight := by
  cases a with
  | demand mode arm safetyDisarm => exact hstands.elim
  | drive now modeService armService allowArm => exact drive_weight h ha
  | execute => exact execute_weight h
  | reply now => exact reply_weight h ha
  | report => exact report_weight h

/-- When no step is useful any more, the session is ready. -/
theorem quiet_ready (h : UnderWay l) (hquiet : ∀ a, l.Obeys a → l.useful a = false) : l.session.ready = true := by
  have hsent : l.sent = [] := by simpa [useful] using hquiet .execute trivial
  have hseen : l.Seen := by simpa [useful] using hquiet .report trivial
  have hlive : ¬ l.session.Expires l.session.sentAt := by
    rintro ⟨-, hlate⟩
    omega
  have hreplies : l.replies = [] := by simpa [useful] using hquiet (.reply l.session.sentAt) hlive
  have hidle : l.session.pending = none := by
    rw [Option.eq_none_iff_forall_ne_some]
    intro c hc
    cases hacked : l.session.acked with
    | false =>
      have hanswered := h.answered c hc hacked
      rw [hsent, hreplies] at hanswered
      simp at hanswered
    | true =>
      obtain ⟨-, hopen⟩ := h.acked c hc hacked
      obtain ⟨-, hdid⟩ := (h.last c hc).resolve_left (by
        rintro ⟨stale, hstale⟩
        rw [hsent] at hstale
        simp at hstale)
      refine hopen ?_
      unfold Did at hdid
      unfold FcuSessionController.Confirmed
      rw [hseen.2.1, hseen.2.2]
      exact hdid
  have hnone : ¬ (l.session.issue l.session.sentAt true true true).2.isSome = true := by
    have hdrive : (l.session.next l.session.sentAt true true true).2.isSome = false :=
      hquiet (.drive l.session.sentAt true true true) hlive
    unfold FcuSessionController.next at hdrive
    rw [FcuSessionController.tick_live hlive] at hdrive
    simp [hdrive]
  rw [FcuSessionController.issue_isSome_iff hseen.1 hidle, not_not] at hnone
  have hmode : l.session.mode = l.session.wantedMode := by
    by_contra hne
    exact absurd (hnone.mode hne) (by simp [h.healthy.1])
  have harm : l.session.armed = l.session.wantedArm := by
    by_contra hne
    rcases hnone.arm hne with hfailed | ⟨-, hmode'⟩
    · exact absurd hfailed (by simp [h.healthy.2])
    · exact hmode' hmode
  exact FcuSessionController.ready_iff.2 ⟨⟨hseen.1, hmode, harm⟩, hidle⟩

theorem weight_le (l : SessionLoop) : l.weight ≤ 13 + 3 * l.sent.length + l.replies.length := by
  have hallowance := allowance_le l
  have hseen := owed_le_one l.Seen
  unfold weight
  omega

/-- After any past, with the demand standing and the FCU obeying in any order: at most three commands are handed out,
at most thirteen steps do something beyond those that bring in what was on its way, and when no step does, the
session is ready. -/
theorem session_converges (mode : String) (armed : Bool) (past more : List Action)
    (hpast : machine.Along Obeys { mode := mode, armed := armed } past)
    (hmore : machine.Along (fun l a => l.Obeys a ∧ a.Stands)
      (machine.final { mode := mode, armed := armed } past) more) :
    (machine.log (machine.final { mode := mode, armed := armed } past) more).length ≤ 3 ∧
      machine.tally useful (machine.final { mode := mode, armed := armed } past) more ≤
        13 + 3 * (machine.final { mode := mode, armed := armed } past).sent.length +
          (machine.final { mode := mode, armed := armed } past).replies.length ∧
      ((∀ a, (machine.final { mode := mode, armed := armed } (past ++ more)).Obeys a →
          (machine.final { mode := mode, armed := armed } (past ++ more)).useful a = false) →
        (machine.final { mode := mode, armed := armed } (past ++ more)).session.ready = true) := by
  have hway : UnderWay (machine.final { mode := mode, armed := armed } past) :=
    Machine.inv_final (I := UnderWay) (fun l a h ha => h.step ha) (.start mode armed) hpast
  rw [Machine.final_append]
  generalize machine.final { mode := mode, armed := armed } past = l at hway hmore ⊢
  have hbudget := Machine.budget UnderWay (fun _ => true) allowance (fun l a h ha => ⟨h.step ha.1, by
    rw [List.countP_true]
    exact step_allowance h ha.1 ha.2⟩) hway hmore
  have htally := Machine.tally_budget UnderWay useful weight
    (fun l a h ha => ⟨h.step ha.1, step_weight h ha.1 ha.2⟩) hway hmore
  have hend : UnderWay (machine.final l more) :=
    Machine.inv_final (I := UnderWay) (fun l a h ha => h.step ha.1) hway hmore
  refine ⟨?_, ?_, quiet_ready hend⟩
  · rw [List.countP_true] at hbudget
    have hallowance := allowance_le l
    omega
  · have hweight := weight_le l
    omega

/-- An autonomous session is demanded of a disarmed FCU in HOLD. -/
theorem guided_converges :
    (machine.log (machine.final { mode := "HOLD", armed := false } [.report, .demand "GUIDED" true false])
      [.drive 0 true true true, .execute, .report, .reply 1, .drive 2 true true true]).length ≤ 3 :=
  (session_converges "HOLD" false [.report, .demand "GUIDED" true false]
    [.drive 0 true true true, .execute, .report, .reply 1, .drive 2 true true true] (by decide) (by decide)).1

end Convergence

end SessionLoop
end MowgliMavros
