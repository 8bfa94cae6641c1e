import Mathlib.Data.List.TakeWhile
import MowgliMavros.Firmware
import MowgliMavros.Lib.Machine

/-!
# The selection of the firmware

The launch resolves `MAVROS_FIRMWARE` once (`mavros_backend.launch.py`, `firmware_provider.py`) and hands the
name to the bridge. For `auto` it runs a probe that listens for a HEARTBEAT of the target
(`detect_mavros_firmware.cpp`). What it resolves is the firmware that was named, or the one of the first
heartbeat of the target, and the bridge has a provider for it (`firmware_selected`).
-/

namespace MowgliMavros

/-! ### The probe -/

/-- A frame of the connection; `autopilot` is the field of a HEARTBEAT. -/
structure ProbeFrame where
  framingOk : Bool
  sysid : UInt8
  compid : UInt8
  msgid : Nat
  len : Nat
  autopilot : UInt8
deriving DecidableEq

/-- A HEARTBEAT of the target, from an autopilot. -/
def ProbeFrame.isTarget (system component : Int) (frame : ProbeFrame) : Bool :=
  frame.framingOk && (frame.sysid.toNat : Int) = system && (frame.compid.toNat : Int) = component &&
    frame.msgid = 0 && frame.len ≥ 9 && frame.autopilot ≠ 8

def ProbeFrame.firmware (frame : ProbeFrame) : String :=
  if frame.autopilot = 3 then "ardupilot" else if frame.autopilot = 12 then "px4" else "unknown"

structure FirmwareProbe where
  received : Bool := false
  firmware : String := ""

namespace FirmwareProbe

/-- The callback of the connection. -/
def listen (system component : Int) : Machine FirmwareProbe ProbeFrame Empty where
  step probe frame :=
    if ¬ frame.isTarget system component then (probe, [])
    else if probe.received then (probe, [])
    else ({ received := true, firmware := frame.firmware }, [])

def isSpace (c : Char) : Bool := c = ' ' || (9 ≤ c.toNat && c.toNat ≤ 13)

/-- Whether a minus stands before the number, and what follows the sign. -/
def sign : List Char → Bool × List Char
  | [] => (false, [])
  | c :: text => if c = '-' then (true, text) else if c = '+' then (false, text) else (false, c :: text)

/-- `std::stoi`: the number and what stands behind it. -/
def stoi (text : List Char) : Except String (Int × List Char) :=
  let (negative, text) := sign (text.dropWhile isSpace)
  let digits := text.takeWhile Char.isDigit
  let number : Int := Nat.ofDigitChars 10 digits 0
  let number := if negative then -number else number
  if digits = [] ∨ number < -2147483648 ∨ 2147483647 < number then .error "stoi"
  else .ok (number, text.drop digits.length)

def integerArgument (value : String) (minimum maximum : Int) : Except String Int := do
  let (number, rest) ← stoi value.toList
  if rest ≠ [] ∨ number < minimum ∨ number > maximum then throw "invalid detection argument"
  return number

/-- `main` with the frames that come before the connection is closed; the timeout ends the wait. -/
def detect (openUrl : String → Except String (List ProbeFrame)) (url system component : String)
    (timeoutMs : String) : Except String String := do
  let system ← integerArgument system 1 255
  let component ← integerArgument component 1 255
  let _ ← integerArgument timeoutMs 1 10000
  let frames ← openUrl url
  -- the callbacks have stopped before the outcome is read
  let probe := (listen system component).final {} frames
  if ¬ probe.received then throw "no target FCU heartbeat received before timeout or connection closure"
  if probe.firmware = "unknown" then throw "target FCU firmware cannot be identified as ArduPilot or PX4"
  return probe.firmware ++ "\n"

end FirmwareProbe

/-! ### The launch -/

structure BootstrapCapabilities where
  mavrosBootstrap : Bool
  heartbeatAutodetection : Bool
deriving DecidableEq

/-- `FirmwareProvider` of the launch. -/
structure BootstrapProvider where
  name : String
  mavrosProfile : Option String
  capabilities : BootstrapCapabilities
deriving DecidableEq

namespace BootstrapProvider

def requireBootstrap (p : BootstrapProvider) : Except String BootstrapProvider :=
  if ¬ p.capabilities.mavrosBootstrap then .error ("MAVROS_FIRMWARE=" ++ p.name ++ ": not implemented") else .ok p

def providers : List BootstrapProvider :=
  [⟨"ardupilot", some "apm", ⟨true, true⟩⟩, ⟨"px4", some "px4", ⟨true, true⟩⟩, ⟨"betaflight", none, ⟨false, false⟩⟩,
    ⟨"inav", none, ⟨false, false⟩⟩, ⟨"mowgli", none, ⟨false, false⟩⟩]

def publicFirmwares : List String := providers.map (·.name) ++ ["auto"]

def unknownFirmware : String := "MAVROS_FIRMWARE must be " ++ ", ".intercalate publicFirmwares

/-- No letter of these names is the lower case of anything but an ASCII letter. -/
def getFirmwareProvider (firmware : String) : Except String BootstrapProvider :=
  match providers.find? (·.name = firmware.toLower) with
  | some p => .ok p
  | none => .error unknownFirmware

/-- `str.isspace`. -/
def isSpace (c : Char) : Bool :=
  (9 ≤ c.toNat && c.toNat ≤ 13) || (28 ≤ c.toNat && c.toNat ≤ 32) || (0x2000 ≤ c.toNat && c.toNat ≤ 0x200A) ||
    c.toNat ∈ [0x85, 0xA0, 0x1680, 0x2028, 0x2029, 0x202F, 0x205F, 0x3000]

def strip (text : String) : String :=
  String.ofList ((text.toList.dropWhile isSpace).reverse.dropWhile isSpace).reverse

/-- `run` is the subprocess: what the probe prints, or why there is no such output. -/
def resolveFirmwareProvider (run : String → String → String → Except String String)
    (firmware fcuUrl tgtSystem tgtComponent : String) : Except String BootstrapProvider :=
  let firmware := firmware.toLower
  if firmware ∉ publicFirmwares then .error unknownFirmware
  else if firmware = "auto" then
    match run fcuUrl tgtSystem tgtComponent with
    | .error detail => .error ("MAVROS_FIRMWARE=auto: detection failed: " ++ detail)
    | .ok stdout =>
      if strip stdout ∉ publicFirmwares ∨ strip stdout = "auto" then
        .error "MAVROS_FIRMWARE=auto: unrecognized detection result"
      else do
        let provider ← getFirmwareProvider (strip stdout)
        if ¬ provider.capabilities.heartbeatAutodetection then
          throw "MAVROS_FIRMWARE=auto: unrecognized detection result"
        provider.requireBootstrap
  else do
    let provider ← getFirmwareProvider firmware
    provider.requireBootstrap

end BootstrapProvider

/-- The subprocess: it may fail to start or to end in time, and it runs the probe for ten seconds at most. -/
def probeRun (failure : Option String) (openUrl : String → Except String (List ProbeFrame))
    (url system component : String) : Except String String :=
  match failure with
  | some detail => .error detail
  | none => (FirmwareProbe.detect openUrl url system component "10000").mapError (· ++ "\n")

namespace FirmwareProbe

/-! ### What the probe reads -/

/-- A number in decimal, after blanks and perhaps a sign. -/
def Spells (text : List Char) (number : Int) : Prop :=
  ∃ blanks sign digits, text = blanks ++ (sign ++ digits) ∧ (∀ c ∈ blanks, isSpace c) ∧
    digits ≠ [] ∧ (∀ c ∈ digits, c.isDigit) ∧
    (sign = ['-'] ∧ number = -(Nat.ofDigitChars 10 digits 0 : Int) ∨
      (sign = [] ∨ sign = ['+']) ∧ number = Nat.ofDigitChars 10 digits 0)

theorem check_ok {α : Type} {p : Prop} [Decidable p] {e : String} {a b : α} :
    (if p then .error e else .ok a : Except String α) = .ok b ↔ ¬ p ∧ a = b := by
  split <;> simp_all

theorem isSpace_of_isDigit {c : Char} (h : c.isDigit) : isSpace c = false ∧ c ≠ '-' ∧ c ≠ '+' := by
  have hc : 48 ≤ c.toNat ∧ c.toNat ≤ 57 := by
    simpa [Char.isDigit, UInt32.le_iff_toNat_le] using h
  refine ⟨?_, ?_, ?_⟩
  · simp only [isSpace, Bool.or_eq_false_iff, decide_eq_false_iff_not, Bool.and_eq_false_iff]
    exact ⟨by rintro rfl; revert hc; decide, by omega⟩
  all_goals rintro rfl; revert hc; decide

/-- The blanks end where the sign or the first digit stands. -/
theorem dropWhile_blanks {blanks rest : List Char} (hb : ∀ c ∈ blanks, isSpace c)
    (hr : ∀ c, rest.head? = some c → isSpace c = false) : (blanks ++ rest).dropWhile isSpace = rest := by
  rw [List.dropWhile_append_of_pos hb]
  cases rest with
  | nil => rfl
  | cons c rest => rw [List.dropWhile_cons_of_neg (by simp [hr c rfl])]

theorem takeWhile_digits {digits : List Char} (h : ∀ c ∈ digits, c.isDigit) :
    digits.takeWhile Char.isDigit = digits := by
  simpa using h

theorem sign_cases (text : List Char) :
    text = '-' :: (sign text).2 ∧ (sign text).1 = true ∨
      (text = (sign text).2 ∨ text = '+' :: (sign text).2) ∧ (sign text).1 = false := by
  cases text with
  | nil => simp [sign]
  | cons c text =>
    simp only [sign]
    split_ifs with hm hp
    · simp [hm]
    · simp [hp]
    · simp

theorem stoi_of_spells {text : List Char} {number : Int} (h : Spells text number) :
    stoi text = if number < -2147483648 ∨ 2147483647 < number then .error "stoi" else .ok (number, []) := by
  obtain ⟨blanks, sgn, digits, rfl, hb, hd, hdig, hn⟩ := h
  obtain ⟨c, ds, rfl⟩ := List.exists_cons_of_ne_nil hd
  obtain ⟨hc, hminus, hplus⟩ := isSpace_of_isDigit (hdig c (by simp))
  have hdrop : (blanks ++ (sgn ++ c :: ds)).dropWhile isSpace = sgn ++ c :: ds := by
    apply dropWhile_blanks hb
    rcases hn with ⟨rfl, -⟩ | ⟨rfl | rfl, -⟩
    · simp [show isSpace '-' = false by decide]
    · simp [hc]
    · simp [show isSpace '+' = false by decide]
  unfold stoi
  rw [hdrop]
  rcases hn with ⟨rfl, rfl⟩ | ⟨rfl | rfl, rfl⟩
  all_goals simp [sign, takeWhile_digits hdig, hminus, hplus]

theorem spells_of_stoi {text : List Char} {number : Int} (h : stoi text = .ok (number, [])) :
    Spells text number ∧ -2147483648 ≤ number ∧ number ≤ 2147483647 := by
  unfold stoi at h
  generalize hr : sign (text.dropWhile isSpace) = r at h
  obtain ⟨negative, rest⟩ := r
  simp only [check_ok, Prod.mk.injEq, not_or, Int.not_lt] at h
  obtain ⟨⟨hne, hrange⟩, hn, hend⟩ := h
  have hdig : rest.takeWhile Char.isDigit = rest :=
    (List.takeWhile_prefix _).eq_of_length_le (List.drop_eq_nil_iff.1 hend)
  rw [hdig] at hne hn hrange
  rw [hn] at hrange
  have hblank : text = text.takeWhile isSpace ++ text.dropWhile isSpace := List.takeWhile_append_dropWhile.symm
  have hall : ∀ c ∈ rest, c.isDigit := fun c hc => List.mem_takeWhile_imp (hdig.symm ▸ hc)
  have hsign := sign_cases (text.dropWhile isSpace)
  rw [hr] at hsign
  refine ⟨?_, hrange⟩
  rcases hsign with ⟨hm, rfl⟩ | ⟨hp | hp, rfl⟩
  · refine ⟨_, ['-'], rest, hm ▸ hblank, fun c hc => List.mem_takeWhile_imp hc, hne, hall, .inl ⟨rfl, ?_⟩⟩
    simpa using hn.symm
  · refine ⟨_, [], rest, hp ▸ hblank, fun c hc => List.mem_takeWhile_imp hc, hne, hall, .inr ⟨.inl rfl, ?_⟩⟩
    simpa using hn.symm
  · refine ⟨_, ['+'], rest, hp ▸ hblank, fun c hc => List.mem_takeWhile_imp hc, hne, hall, .inr ⟨.inr rfl, ?_⟩⟩
    simpa using hn.symm

theorem integerArgument_ok {value : String} {low high number : Int} (hl : -2147483648 ≤ low)
    (hh : high ≤ 2147483647) :
    integerArgument value low high = .ok number ↔ Spells value.toList number ∧ low ≤ number ∧ number ≤ high := by
  unfold integerArgument
  constructor
  · intro h
    cases hs : stoi value.toList with
    | error e => rw [hs] at h; cases h
    | ok r =>
      obtain ⟨n, rest⟩ := r
      rw [hs] at h
      simp only [bind, Except.bind] at h
      split at h
      · cases h
      · rename_i hok
        cases h
        obtain ⟨rfl, hlow, hhigh⟩ : rest = [] ∧ low ≤ number ∧ number ≤ high := by simpa using hok
        exact ⟨(spells_of_stoi hs).1, hlow, hhigh⟩
  · rintro ⟨hs, h1, h2⟩
    rw [stoi_of_spells hs, if_neg (by omega)]
    simp [show ¬ number < low by omega, show ¬ high < number by omega, bind, Except.bind, pure, Except.pure]

theorem address_ok {value : String} {number : Int} :
    integerArgument value 1 255 = .ok number ↔ Spells value.toList number ∧ 1 ≤ number ∧ number ≤ 255 :=
  integerArgument_ok (by decide) (by decide)

/-- The first heartbeat of the target decides. -/
theorem listen_final (probe : FirmwareProbe) :
    (listen system component).final probe frames =
      if probe.received then probe
      else (frames.find? (·.isTarget system component)).elim probe fun m => ⟨true, m.firmware⟩ := by
  induction frames generalizing probe with
  | nil => simp
  | cons m frames ih =>
    rw [Machine.final_cons, ih]
    by_cases hm : m.isTarget system component <;> by_cases hr : probe.received <;> simp [listen, hm, hr]

/-- A heartbeat of an autopilot that is neither of the two, or none at all, is no answer. -/
theorem detect_ok {openUrl : String → Except String (List ProbeFrame)} {url sys comp out : String} :
    detect openUrl url sys comp "10000" = .ok out ↔
      ∃ s c frames m, integerArgument sys 1 255 = .ok s ∧ integerArgument comp 1 255 = .ok c ∧
        openUrl url = .ok frames ∧ frames.find? (·.isTarget s c) = some m ∧ m.firmware ≠ "unknown" ∧
        m.firmware ++ "\n" = out := by
  have ht : integerArgument "10000" 1 10000 = .ok 10000 := by rfl
  unfold detect
  rw [ht]
  cases integerArgument sys 1 255 with
  | error e => simp [bind, Except.bind]
  | ok s =>
    cases integerArgument comp 1 255 with
    | error e => simp [bind, Except.bind]
    | ok c =>
      cases openUrl url with
      | error e => simp [bind, Except.bind]
      | ok frames =>
        simp only [bind, Except.bind, listen_final]
        cases hf : frames.find? (·.isTarget s c) with
        | none => simp [hf]
        | some m =>
          by_cases hu : m.firmware = "unknown"
          · simp [hf, hu]
          · simp [hf, hu, pure, Except.pure]

end FirmwareProbe

/-! ### The firmware that is selected -/

namespace FirmwareProvider

/-- The launch's record of a firmware that the bridge can drive. -/
def bootstrap (p : FirmwareProvider) : BootstrapProvider :=
  match p with
  | ardupilot => ⟨"ardupilot", some "apm", ⟨true, true⟩⟩
  | px4 => ⟨"px4", some "px4", ⟨true, true⟩⟩

/-- `MAV_AUTOPILOT`. -/
def autopilot (p : FirmwareProvider) : UInt8 :=
  match p with
  | ardupilot => 3
  | px4 => 12

/-- The first heartbeat of an autopilot with the ids of the target on the connection is one of `p`. -/
def Heard (openUrl : String → Except String (List ProbeFrame)) (url system component : String)
    (p : FirmwareProvider) : Prop :=
  ∃ (s c : Int) (frames : List ProbeFrame) (m : ProbeFrame),
    (FirmwareProbe.Spells system.toList s ∧ 1 ≤ s ∧ s ≤ 255) ∧
    (FirmwareProbe.Spells component.toList c ∧ 1 ≤ c ∧ c ≤ 255) ∧
    openUrl url = .ok frames ∧ frames.find? (·.isTarget s c) = some m ∧ m.autopilot = p.autopilot

theorem firmware_eq_name {m : ProbeFrame} {p : FirmwareProvider} :
    m.firmware = p.name ↔ m.autopilot = p.autopilot := by
  unfold ProbeFrame.firmware
  split_ifs with h h'
  · cases p <;> simp [h, name, autopilot]
  · cases p <;> simp [h', name, autopilot]
  · cases p <;> simp [h, h', name, autopilot]

theorem firmware_cases (m : ProbeFrame) : m.firmware = "unknown" ∨ ∃ p : FirmwareProvider, m.firmware = p.name := by
  unfold ProbeFrame.firmware
  split_ifs
  · exact .inr ⟨.ardupilot, rfl⟩
  · exact .inr ⟨.px4, rfl⟩
  · exact .inl rfl

theorem name_ne_unknown (p : FirmwareProvider) : p.name ≠ "unknown" := by
  cases p <;> decide

theorem makeFirmwareProvider_bootstrap (p : FirmwareProvider) : makeFirmwareProvider p.bootstrap.name = .ok p := by
  cases p <;> rfl

theorem strip_name (p : FirmwareProvider) : BootstrapProvider.strip (p.name ++ "\n") = p.name := by
  cases p <;> decide +kernel

end FirmwareProvider

namespace BootstrapProvider

/-- What the probe prints names a firmware of the first heartbeat. -/
theorem probeRun_ok {failure : Option String} {openUrl : String → Except String (List ProbeFrame)}
    {url system component out : String} :
    probeRun failure openUrl url system component = .ok out ↔
      ∃ p : FirmwareProvider, failure = none ∧ p.Heard openUrl url system component ∧ out = p.name ++ "\n" := by
  cases failure with
  | some detail => simp [probeRun]
  | none =>
    have hmap : probeRun none openUrl url system component = .ok out ↔
        FirmwareProbe.detect openUrl url system component "10000" = .ok out := by
      unfold probeRun
      cases FirmwareProbe.detect openUrl url system component "10000" <;> simp [Except.mapError]
    rw [hmap, FirmwareProbe.detect_ok]
    simp only [FirmwareProbe.address_ok]
    constructor
    · rintro ⟨s, c, frames, m, hs, hc, hopen, hm, hu, rfl⟩
      obtain hu' | ⟨p, hp⟩ := FirmwareProvider.firmware_cases m
      · exact absurd hu' hu
      · exact ⟨p, trivial, ⟨s, c, frames, m, hs, hc, hopen, hm, FirmwareProvider.firmware_eq_name.1 hp⟩, by rw [hp]⟩
    · rintro ⟨p, -, ⟨s, c, frames, m, hs, hc, hopen, hm, ha⟩, rfl⟩
      have hp := FirmwareProvider.firmware_eq_name.2 ha
      exact ⟨s, c, frames, m, hs, hc, hopen, hm, by rw [hp]; exact p.name_ne_unknown, by rw [hp]⟩

theorem getFirmwareProvider_public {firmware : String} (h : firmware ∈ publicFirmwares) :
    getFirmwareProvider firmware = (providers.find? (·.name = firmware)).elim (.error unknownFirmware) .ok := by
  have hlower : ∀ name ∈ publicFirmwares, name.toLower = name := by decide +kernel
  unfold getFirmwareProvider
  rw [hlower firmware h]
  cases providers.find? (·.name = firmware) <;> rfl

theorem name_public (p : FirmwareProvider) : p.name ∈ publicFirmwares := by
  cases p <;> decide

theorem require_name (p : FirmwareProvider) :
    (getFirmwareProvider p.name >>= fun provider => provider.requireBootstrap) = .ok p.bootstrap := by
  rw [getFirmwareProvider_public (name_public p)]
  cases p <;> rfl

/-- The other public names are refused: `auto` is no firmware, and the rest have no bootstrap. -/
theorem require_other {firmware : String} (h : firmware ∈ publicFirmwares)
    (hp : ∀ p : FirmwareProvider, firmware ≠ p.name) :
    ∃ e, (getFirmwareProvider firmware >>= fun provider => provider.requireBootstrap) = .error e := by
  rw [getFirmwareProvider_public h]
  have hall : firmware = "ardupilot" ∨ firmware = "px4" ∨ firmware = "betaflight" ∨ firmware = "inav" ∨
      firmware = "mowgli" ∨ firmware = "auto" := by simpa [publicFirmwares, providers] using h
  rcases hall with rfl | rfl | rfl | rfl | rfl | rfl
  · exact absurd rfl (hp .ardupilot)
  · exact absurd rfl (hp .px4)
  all_goals exact ⟨_, rfl⟩

theorem require_ok {firmware : String} (h : firmware ∈ publicFirmwares) {b : BootstrapProvider} :
    (getFirmwareProvider firmware >>= fun provider => provider.requireBootstrap) = .ok b ↔
      ∃ p : FirmwareProvider, firmware = p.name ∧ b = p.bootstrap := by
  constructor
  · intro hb
    by_cases hp : ∃ p : FirmwareProvider, firmware = p.name
    · obtain ⟨p, rfl⟩ := hp
      rw [require_name] at hb
      exact ⟨p, rfl, (Except.ok.inj hb).symm⟩
    · obtain ⟨e, he⟩ := require_other h (not_exists.1 hp)
      rw [he] at hb
      cases hb
  · rintro ⟨p, rfl, rfl⟩
    exact require_name p

/-- What the probe printed is resolved to the firmware it names. -/
theorem resolve_printed {run : String → String → String → Except String String}
    {firmware url system component : String} (hauto : firmware.toLower = "auto") {p : FirmwareProvider}
    (hrun : run url system component = .ok (p.name ++ "\n")) :
    resolveFirmwareProvider run firmware url system component = .ok p.bootstrap := by
  unfold resolveFirmwareProvider
  simp only [hauto, hrun, p.strip_name]
  rw [getFirmwareProvider_public (name_public p)]
  cases p <;> rfl

/-- The launch resolves a firmware if and only if it is named, or if `auto` is and the first heartbeat of the
target is from it; the bridge has a provider of that name. -/
theorem firmware_selected {failure : Option String} {openUrl : String → Except String (List ProbeFrame)}
    {firmware url system component : String} {b : BootstrapProvider} :
    resolveFirmwareProvider (probeRun failure openUrl) firmware url system component = .ok b ↔
      ∃ p : FirmwareProvider, b = p.bootstrap ∧ makeFirmwareProvider b.name = .ok p ∧
        (firmware.toLower = p.name ∨
          firmware.toLower = "auto" ∧ failure = none ∧ p.Heard openUrl url system component) := by
  constructor
  · intro h
    by_cases hauto : firmware.toLower = "auto"
    · cases hrun : probeRun failure openUrl url system component with
      | error e =>
        have hpub : "auto" ∈ publicFirmwares := by decide
        simp [resolveFirmwareProvider, hauto, hrun, hpub] at h
      | ok out =>
        obtain ⟨p, hnone, hp, rfl⟩ := probeRun_ok.1 hrun
        rw [resolve_printed hauto hrun] at h
        obtain rfl := Except.ok.inj h
        exact ⟨p, rfl, p.makeFirmwareProvider_bootstrap, .inr ⟨hauto, hnone, hp⟩⟩
    · unfold resolveFirmwareProvider at h
      simp only [hauto, if_false] at h
      split at h
      · cases h
      · rename_i hpub
        obtain ⟨p, hname, rfl⟩ := (require_ok (not_not.1 hpub)).1 h
        exact ⟨p, rfl, p.makeFirmwareProvider_bootstrap, .inl hname⟩
  · rintro ⟨p, rfl, -, hname | ⟨hauto, hnone, hp⟩⟩
    · unfold resolveFirmwareProvider
      simp only [hname, name_public, not_true_eq_false, if_false]
      rw [if_neg (by cases p <;> decide), require_name]
    · exact resolve_printed hauto (probeRun_ok.2 ⟨p, hnone, hp, rfl⟩)

end BootstrapProvider

end MowgliMavros
