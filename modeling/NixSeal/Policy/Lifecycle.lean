import NixSeal.Policy.Target

/-!
# Lifecycle reports

The report of an accepted plan compares the expiry and the next rotation of every secret with the
time.  The next rotation is the last one, or the creation, plus some days: it need not be a
timestamp, and then nothing at all is reported.
-/

namespace NixSeal
namespace Policy

/-! ## The report -/

/-- `jiff::Timestamp::MIN`, in nanoseconds. -/
def minTimestamp : Int := -377705023201 * 10 ^ 9

/-- `jiff::Timestamp::MAX`, in nanoseconds. -/
def maxTimestamp : Int := 253402207200 * 10 ^ 9 + 999999999

/-- The times that are timestamps. -/
def Supported (time : Int) : Prop := minTimestamp ≤ time ∧ time ≤ maxTimestamp

instance (time : Int) : Decidable (Supported time) := inferInstanceAs (Decidable (_ ∧ _))

/-- The timestamp of a time. -/
def toTimestamp (time : Int) : Option Int := if Supported time then some time else none

/-- `Timestamp::checked_add`, of whole seconds. -/
def checkedAddSeconds (base : Int) (seconds : Nat) : Option Int :=
  toTimestamp (base + seconds * 10 ^ 9)

/-- `LifecycleStateV1`. -/
inductive LifecycleState where
  | unmanaged
  | current
  | rotationDue
  | expired
  deriving DecidableEq, Repr

/-- `SecretLifecycleReportV1`. -/
structure SecretLifecycleReport where
  secretId : Id
  state : LifecycleState
  expiresAt : Option String
  rotationDueAt : Option String

/-- The next rotation. -/
def rotationDue (E : Environment) (lifecycle : Lifecycle) : Except PolicyError (Option Int) :=
  match lifecycle.rotatedAt.or lifecycle.createdAt, lifecycle.rotateAfterDays with
  | some base, some days => do
      let base ← parseTimestamp E "rotation base" base
      let seconds := days.toNat * 86400
      if seconds < 2 ^ 64 then
        match checkedAddSeconds base seconds with
        | none => .error (.violation "rotation due time exceeds supported range")
        | some due => .ok (some due)
      else .error (.violation "rotation interval exceeds supported range")
  | _, _ => .ok none

/-- The state at some time. -/
def lifecycleState (expires due : Option Int) (now : Int) : LifecycleState :=
  if expires.any (· ≤ now) then .expired
  else if due.any (· ≤ now) then .rotationDue
  else if expires.isNone && due.isNone then .unmanaged
  else .current

/-- The entry of one secret. -/
def secretLifecycle (E : Environment) (display : Int → String) (now : Int) (entry : Id × Secret) :
    Except PolicyError SecretLifecycleReport := do
  let expires ← parseOptionalTimestamp E "expiresAt" entry.2.lifecycle.expiresAt
  let due ← rotationDue E entry.2.lifecycle
  .ok {
    secretId := entry.1
    state := lifecycleState expires due now
    expiresAt := expires.map display
    rotationDueAt := due.map display }

/-- `lifecycle_report`, given how a timestamp is displayed. -/
def lifecycleReport (E : Environment) (display : Int → String) (plan : Plan) (now : Int) :
    Except PolicyError (List SecretLifecycleReport) := do
  validate E plan
  match toTimestamp now with
  | none => .error (.violation "system time is outside supported lifecycle range")
  | some now => plan.secrets.toList.mapM (secretLifecycle E display now)

/-! ## What a report says -/

/-- The expiry lies behind. -/
def ExpiredAt (E : Environment) (lifecycle : Lifecycle) (now : Int) : Prop :=
  ∃ time, lifecycle.expiresAt.bind E.timestamp = some time ∧ time ≤ now

/-- The next rotation, in exact arithmetic. -/
def dueTime (E : Environment) (lifecycle : Lifecycle) : Option Int := do
  let days ← lifecycle.rotateAfterDays
  let base ← (lifecycle.rotatedAt.or lifecycle.createdAt).bind E.timestamp
  some (base + days.toNat * (86400 * 10 ^ 9))

/-- The next rotation lies behind. -/
def DueAt (E : Environment) (lifecycle : Lifecycle) (now : Int) : Prop :=
  ∃ time, dueTime E lifecycle = some time ∧ time ≤ now

/-- A state is the one of a lifecycle at some time. -/
structure LifecycleState.Describes (E : Environment) (lifecycle : Lifecycle) (now : Int)
    (state : LifecycleState) : Prop where
  expired : state = .expired ↔ ExpiredAt E lifecycle now
  rotationDue : state = .rotationDue ↔ ¬ExpiredAt E lifecycle now ∧ DueAt E lifecycle now
  unmanaged : state = .unmanaged ↔ ¬ExpiredAt E lifecycle now ∧ ¬DueAt E lifecycle now ∧
    lifecycle.expiresAt = none ∧ lifecycle.rotateAfterDays = none
  current : state = .current ↔ ¬ExpiredAt E lifecycle now ∧ ¬DueAt E lifecycle now ∧
    ¬(lifecycle.expiresAt = none ∧ lifecycle.rotateAfterDays = none)

/-- What a later report may say of a secret. -/
def Advances (before after : SecretLifecycleReport) : Prop :=
  before.secretId = after.secretId ∧ (before.state = .expired → after.state = .expired) ∧
    (before.state = .rotationDue → after.state ≠ .current)

/-- A plan is reported on at every time. -/
structure ReportsAlways (E : Environment) (display : Int → String) (plan : Plan) : Prop where
  reports : ∀ now, Supported now → ∃ entries, lifecycleReport E display plan now = .ok entries ∧
    List.Forall₂ (fun stored entry => entry.secretId = stored.1 ∧
      entry.state.Describes E stored.2.lifecycle now) plan.secrets.toList entries
  advances : ∀ now later before after, now ≤ later →
    lifecycleReport E display plan now = .ok before →
      lifecycleReport E display plan later = .ok after → List.Forall₂ Advances before after

/-- The next rotation of every secret is a timestamp. -/
def DuesSupported (E : Environment) (plan : Plan) : Prop :=
  ∀ (id : Id) (secret : Secret), plan.secrets[id]? = some secret →
    ∀ due, dueTime E secret.lifecycle = some due → Supported due

/-! ## Accepted lifecycles -/

/-- What `validate_lifecycle` leaves for the report. -/
structure AcceptedLifecycle (E : Environment) (lifecycle : Lifecycle) : Prop where
  created : ∀ text, lifecycle.createdAt = some text → ∃ time, E.timestamp text = some time
  rotated : ∀ text, lifecycle.rotatedAt = some text → ∃ time, E.timestamp text = some time
  expires : ∀ text, lifecycle.expiresAt = some text → ∃ time, E.timestamp text = some time
  based : lifecycle.rotateAfterDays ≠ none → lifecycle.rotatedAt.or lifecycle.createdAt ≠ none

section Accepted

variable {E : Environment} {lifecycle : Lifecycle}

theorem parseTimestamp_eq_ok {label value : String} {time : Int} :
    parseTimestamp E label value = .ok time ↔ E.timestamp value = some time := by
  unfold parseTimestamp
  cases E.timestamp value <;> simp

theorem parseOptionalTimestamp_eq_ok {label : String} {value : Option String}
    {time : Option Int} :
    parseOptionalTimestamp E label value = .ok time ↔
      time = value.bind E.timestamp ∧
        ∀ text, value = some text → ∃ time, E.timestamp text = some time := by
  cases value with
  | none => simp [parseOptionalTimestamp, eq_comm]
  | some text =>
      rw [parseOptionalTimestamp, Fallible.bind_eq_ok]
      cases parsed : E.timestamp text <;> simp [parseTimestamp, parsed, eq_comm]

theorem acceptedLifecycle_of_validateLifecycle {id : Id}
    (checked : validateLifecycle E id lifecycle = .ok ()) : AcceptedLifecycle E lifecycle := by
  unfold validateLifecycle at checked
  obtain ⟨created, createdParsed, checked⟩ := Fallible.bind_eq_ok.mp checked
  obtain ⟨rotated, rotatedParsed, checked⟩ := Fallible.bind_eq_ok.mp checked
  obtain ⟨expires, expiresParsed, checked⟩ := Fallible.bind_eq_ok.mp checked
  obtain ⟨rfl, createdTimes⟩ := parseOptionalTimestamp_eq_ok.mp createdParsed
  obtain ⟨rfl, rotatedTimes⟩ := parseOptionalTimestamp_eq_ok.mp rotatedParsed
  obtain ⟨rfl, expiresTimes⟩ := parseOptionalTimestamp_eq_ok.mp expiresParsed
  refine ⟨createdTimes, rotatedTimes, expiresTimes, fun interval unbased => ?_⟩
  obtain ⟨noRotation, noCreation⟩ := Option.or_eq_none_iff.mp unbased
  obtain ⟨days, interval⟩ := Option.ne_none_iff_exists'.mp interval
  simp [noRotation, noCreation, interval] at checked

theorem lifecycle_of_validateSecret {plan : Plan} {before after : Std.TreeSet String} {id : Id}
    {secret : Secret} (checked : validateSecret E plan before (id, secret) = .ok after) :
    validateLifecycle E id secret.lifecycle = .ok () := by
  simp only [validateSecret, Fallible.guard_eq_ok] at checked
  obtain ⟨-, -, -, checked⟩ := checked
  obtain ⟨⟨⟩, -, checked⟩ := Fallible.bind_eq_ok.mp checked
  obtain ⟨⟨⟩, -, checked⟩ := Fallible.bind_eq_ok.mp checked
  obtain ⟨⟨⟩, -, checked⟩ := Fallible.bind_eq_ok.mp checked
  obtain ⟨⟨⟩, -, checked⟩ := Fallible.bind_eq_ok.mp checked
  obtain ⟨⟨⟩, -, checked⟩ := Fallible.bind_eq_ok.mp checked
  obtain ⟨⟨⟩, -, checked⟩ := Fallible.bind_eq_ok.mp checked
  obtain ⟨⟨⟩, -, checked⟩ := Fallible.bind_eq_ok.mp checked
  obtain ⟨⟨⟩, -, checked⟩ := Fallible.bind_eq_ok.mp checked
  obtain ⟨⟨⟩, lifecycle, -⟩ := Fallible.bind_eq_ok.mp checked
  exact lifecycle

theorem AcceptedLifecycle.base (accepted : AcceptedLifecycle E lifecycle) {text : String}
    (based : lifecycle.rotatedAt.or lifecycle.createdAt = some text) :
    ∃ time, E.timestamp text = some time := by
  rcases Option.or_eq_some_iff.mp based with rotated | ⟨-, created⟩
  · exact accepted.rotated text rotated
  · exact accepted.created text created

/-- The rotation is due at the exact time, if that is a timestamp. -/
theorem AcceptedLifecycle.rotationDue_eq (accepted : AcceptedLifecycle E lifecycle) :
    rotationDue E lifecycle =
      if ∀ due, dueTime E lifecycle = some due → Supported due then .ok (dueTime E lifecycle)
      else .error (.violation "rotation due time exceeds supported range") := by
  unfold rotationDue dueTime
  cases based : lifecycle.rotatedAt.or lifecycle.createdAt with
  | none =>
      have unset : lifecycle.rotateAfterDays = none := by
        by_contra interval
        exact accepted.based interval based
      simp [unset]
  | some text =>
      cases interval : lifecycle.rotateAfterDays with
      | none => simp
      | some days =>
          obtain ⟨base, parsed⟩ := accepted.base based
          have small : days.toNat * 86400 < 2 ^ 64 := by
            have bound := days.toNat_lt
            omega
          have product : ((days.toNat * 86400 : Nat) : Int) * 10 ^ 9 =
              days.toNat * (86400 * 10 ^ 9) := by
            push_cast
            ring
          simp only [parseTimestamp_eq_ok.mpr parsed, Fallible.ok_bind, if_pos small,
            checkedAddSeconds, toTimestamp, product, parsed, Option.bind_eq_bind, Option.bind_some,
            Option.some.injEq, forall_eq']
          by_cases supported : Supported (base + days.toNat * (86400 * 10 ^ 9))
          · rw [if_pos supported, if_pos supported]
          · rw [if_neg supported, if_neg supported]

theorem AcceptedLifecycle.secretLifecycle_eq {entry : Id × Secret}
    (accepted : AcceptedLifecycle E entry.2.lifecycle) (display : Int → String) (now : Int) :
    secretLifecycle E display now entry =
      if ∀ due, dueTime E entry.2.lifecycle = some due → Supported due then
        .ok {
          secretId := entry.1
          state := lifecycleState (entry.2.lifecycle.expiresAt.bind E.timestamp)
            (dueTime E entry.2.lifecycle) now
          expiresAt := (entry.2.lifecycle.expiresAt.bind E.timestamp).map display
          rotationDueAt := (dueTime E entry.2.lifecycle).map display }
      else .error (.violation "rotation due time exceeds supported range") := by
  have expires := (@parseOptionalTimestamp_eq_ok E "expiresAt" entry.2.lifecycle.expiresAt _).mpr
    ⟨rfl, accepted.expires⟩
  rw [secretLifecycle, expires, accepted.rotationDue_eq]
  split
  · rfl
  · rfl

theorem AcceptedLifecycle.expiry_eq_none (accepted : AcceptedLifecycle E lifecycle) :
    lifecycle.expiresAt.bind E.timestamp = none ↔ lifecycle.expiresAt = none := by
  cases known : lifecycle.expiresAt with
  | none => simp
  | some text =>
      obtain ⟨time, parsed⟩ := accepted.expires text known
      simp [parsed]

theorem AcceptedLifecycle.dueTime_eq_none (accepted : AcceptedLifecycle E lifecycle) :
    dueTime E lifecycle = none ↔ lifecycle.rotateAfterDays = none := by
  cases interval : lifecycle.rotateAfterDays with
  | none => simp [dueTime, interval]
  | some days =>
      obtain ⟨text, based⟩ := Option.ne_none_iff_exists'.mp (accepted.based (by simp [interval]))
      obtain ⟨time, parsed⟩ := accepted.base based
      simp [dueTime, interval, based, parsed]

theorem AcceptedLifecycle.describes (accepted : AcceptedLifecycle E lifecycle) (now : Int) :
    (lifecycleState (lifecycle.expiresAt.bind E.timestamp) (dueTime E lifecycle) now).Describes E
      lifecycle now := by
  have expired : (lifecycle.expiresAt.bind E.timestamp).any (· ≤ now) = true ↔
      ExpiredAt E lifecycle now := by
    simp [Option.any_eq_true, ExpiredAt]
  have due : (dueTime E lifecycle).any (· ≤ now) = true ↔ DueAt E lifecycle now := by
    simp [Option.any_eq_true, DueAt]
  have unmanaged : ((lifecycle.expiresAt.bind E.timestamp).isNone &&
      (dueTime E lifecycle).isNone) = true ↔
        lifecycle.expiresAt = none ∧ lifecycle.rotateAfterDays = none := by
    rw [Bool.and_eq_true, Option.isNone_iff_eq_none, Option.isNone_iff_eq_none,
      accepted.expiry_eq_none, accepted.dueTime_eq_none]
  rw [lifecycleState]
  by_cases past : ExpiredAt E lifecycle now
  · rw [if_pos (expired.mpr past)]
    constructor <;> simp [past]
  · rw [if_neg (mt expired.mp past)]
    by_cases rotate : DueAt E lifecycle now
    · rw [if_pos (due.mpr rotate)]
      constructor <;> simp [past, rotate]
    · rw [if_neg (mt due.mp rotate)]
      by_cases free : lifecycle.expiresAt = none ∧ lifecycle.rotateAfterDays = none
      · rw [if_pos (unmanaged.mpr free)]
        constructor <;> simp [past, rotate, free]
      · rw [if_neg (mt unmanaged.mp free)]
        constructor <;> simp only [past, rotate, free] <;> simp

end Accepted

/-! ## Reports of accepted plans -/

section Reports

variable {E : Environment} {lifecycle : Lifecycle} {now later : Int}

theorem ExpiredAt.mono (before : ExpiredAt E lifecycle now) (order : now ≤ later) :
    ExpiredAt E lifecycle later := by
  obtain ⟨time, expires, past⟩ := before
  exact ⟨time, expires, past.trans order⟩

theorem DueAt.mono (before : DueAt E lifecycle now) (order : now ≤ later) :
    DueAt E lifecycle later := by
  obtain ⟨time, due, past⟩ := before
  exact ⟨time, due, past.trans order⟩

theorem acceptedLifecycle_of_validate {plan : Plan} (accepted : validate E plan = .ok ())
    {entry : Id × Secret} (member : entry ∈ plan.secrets.toList) :
    AcceptedLifecycle E entry.2.lifecycle := by
  have stored := Std.TreeMap.mem_toList_iff_getElem?_eq_some.mp member
  obtain ⟨before, after, checked⟩ := (acceptedPlan_of_validate accepted).secrets _ _ stored
  exact acceptedLifecycle_of_validateLifecycle (lifecycle_of_validateSecret checked)

theorem lifecycleReport_eq {plan : Plan} (accepted : validate E plan = .ok ())
    (display : Int → String) (supported : Supported now) :
    lifecycleReport E display plan now =
      plan.secrets.toList.mapM (secretLifecycle E display now) := by
  rw [lifecycleReport, accepted, toTimestamp, if_pos supported]
  rfl

/-- What an accepted plan reports of its secrets, if it reports at all. -/
theorem reports_of_lifecycleReport {plan : Plan} (accepted : validate E plan = .ok ())
    {display : Int → String} {entries : List SecretLifecycleReport}
    (reported : lifecycleReport E display plan now = .ok entries) :
    List.Forall₂ (fun stored entry => (∀ due, dueTime E stored.2.lifecycle = some due →
      Supported due) ∧ entry.secretId = stored.1 ∧
        entry.state.Describes E stored.2.lifecycle now) plan.secrets.toList entries := by
  have supported : Supported now := by
    by_contra unsupported
    rw [lifecycleReport, accepted, toTimestamp, if_neg unsupported] at reported
    cases reported
  rw [lifecycleReport_eq accepted display supported, Fallible.mapM_eq_ok] at reported
  have each : ∀ stored ∈ plan.secrets.toList, ∀ entry,
      secretLifecycle E display now stored = .ok entry →
        (∀ due, dueTime E stored.2.lifecycle = some due → Supported due) ∧
          entry.secretId = stored.1 ∧ entry.state.Describes E stored.2.lifecycle now := by
    intro stored member entry computed
    have lifecycle := acceptedLifecycle_of_validate accepted member
    rw [lifecycle.secretLifecycle_eq display now] at computed
    split at computed
    · rename_i supported
      cases computed
      exact ⟨supported, rfl, lifecycle.describes now⟩
    · cases computed
  exact ((List.forall₂_and_left _ _).mpr ⟨each, reported⟩).imp
    fun stored entry facts => facts.1 entry facts.2

theorem forall₂_of_common {α β γ : Type} {left : α → β → Prop} {right : α → γ → Prop}
    {items : List α} {firsts : List β} {seconds : List γ} (one : List.Forall₂ left items firsts)
    (two : List.Forall₂ right items seconds) :
    List.Forall₂ (fun first second => ∃ item, left item first ∧ right item second) firsts
      seconds := by
  induction one generalizing seconds with
  | nil =>
      cases two
      exact .nil
  | cons here _ ih =>
      cases two with
      | cons there rest => exact .cons ⟨_, here, there⟩ (ih rest)

theorem LifecycleState.Describes.advances {before after : LifecycleState}
    (first : before.Describes E lifecycle now) (second : after.Describes E lifecycle later)
    (order : now ≤ later) :
    (before = .expired → after = .expired) ∧ (before = .rotationDue → after ≠ .current) := by
  constructor
  · intro expired
    exact second.expired.mpr ((first.expired.mp expired).mono order)
  · intro due current
    exact (second.current.mp current).2.1 ((first.rotationDue.mp due).2.mono order)

/-- Reports never go back. -/
theorem advances_of_lifecycleReport {plan : Plan} (accepted : validate E plan = .ok ())
    {display : Int → String} {before after : List SecretLifecycleReport} (order : now ≤ later)
    (first : lifecycleReport E display plan now = .ok before)
    (second : lifecycleReport E display plan later = .ok after) :
    List.Forall₂ Advances before after := by
  refine (forall₂_of_common (reports_of_lifecycleReport accepted first)
    (reports_of_lifecycleReport accepted second)).imp ?_
  rintro earlier next ⟨stored, ⟨-, sameBefore, describes⟩, -, sameAfter, described⟩
  exact ⟨sameBefore.trans sameAfter.symm, describes.advances described order⟩

/-- One rotation that is no timestamp ends the report. -/
theorem lifecycleReport_of_not_supported {plan : Plan} (accepted : validate E plan = .ok ())
    (display : Int → String) (beyond : ¬DuesSupported E plan) (inside : Supported now) :
    lifecycleReport E display plan now =
      .error (.violation "rotation due time exceeds supported range") := by
  rw [lifecycleReport_eq accepted display inside]
  refine Fallible.mapM_eq_error (fun stored member => ?_) ?_
  · rw [(acceptedLifecycle_of_validate accepted member).secretLifecycle_eq display now]
    split
    · exact .inl ⟨_, rfl⟩
    · exact .inr rfl
  · simp only [DuesSupported, not_forall] at beyond
    obtain ⟨id, secret, stored, due, computed, unsupported⟩ := beyond
    have member := Std.TreeMap.mem_toList_iff_getElem?_eq_some.mpr stored
    refine ⟨(id, secret), member, ?_⟩
    rw [(acceptedLifecycle_of_validate accepted member).secretLifecycle_eq display now,
      if_neg fun all => unsupported (all due computed)]

theorem not_reportsAlways {plan : Plan} (accepted : validate E plan = .ok ())
    (display : Int → String) (beyond : ¬DuesSupported E plan) : ¬ReportsAlways E display plan := by
  intro always
  obtain ⟨entries, reported, -⟩ := always.reports 0 (by decide)
  rw [lifecycleReport_of_not_supported accepted display beyond (by decide)] at reported
  cases reported

end Reports

/-- An accepted plan is reported on at every time exactly when every next rotation is a timestamp;
otherwise one rotation that is none ends the report of all secrets. -/
theorem lifecycleReport_total_iff {E : Environment} {plan : Plan}
    (accepted : validate E plan = .ok ()) (display : Int → String) :
    (ReportsAlways E display plan ↔ DuesSupported E plan) ∧
      (¬DuesSupported E plan → ∀ now, Supported now → lifecycleReport E display plan now =
        .error (.violation "rotation due time exceeds supported range")) := by
  refine ⟨⟨fun always => ?_, fun supported => ⟨fun now inside => ?_, ?_⟩⟩, ?_⟩
  · by_contra beyond
    exact not_reportsAlways accepted display beyond always
  · have each : ∀ stored ∈ plan.secrets.toList, ∃ entry,
        secretLifecycle E display now stored = .ok entry := by
      intro stored member
      have known := Std.TreeMap.mem_toList_iff_getElem?_eq_some.mp member
      exact ⟨_, ((acceptedLifecycle_of_validate accepted member).secretLifecycle_eq display now).trans
        (if_pos (supported _ _ known))⟩
    obtain ⟨entries, computed⟩ := Fallible.exists_mapM_ok each
    rw [← lifecycleReport_eq accepted display inside] at computed
    exact ⟨entries, computed,
      (reports_of_lifecycleReport accepted computed).imp fun _ _ facts => facts.2⟩
  · exact fun now later before after order first second =>
      advances_of_lifecycleReport accepted order first second
  · exact fun beyond now inside =>
      lifecycleReport_of_not_supported accepted display beyond inside

namespace Sample

/-- A creation time. -/
def creation : String := "2026-01-01T00:00:00Z"

/-- The sample environment, which knows the creation time. -/
def datedEnvironment : Environment :=
  { environment with timestamp := fun text =>
      if text = creation then some (1767225600 * 10 ^ 9) else none }

/-- A secret that is rotated after more than eight thousand years. -/
def perpetualSecret : Secret :=
  { tokenSecret with lifecycle := { createdAt := some creation, rotateAfterDays := some 3000000 } }

/-- The secret beside another one, which has no lifecycle. -/
def perpetualSecrets : List (Id × Secret) :=
  [(token, perpetualSecret), (admin, { tokenSecret with source := "admin.age" })]

/-- The sample plan with these secrets. -/
def perpetualPlan : Plan := { plan with secrets := Std.TreeMap.ofList perpetualSecrets }

theorem validate_perpetualPlan : validate datedEnvironment perpetualPlan = .ok () :=
  validate_of_identities rfl rfl rfl (by decide) (by decide +kernel)

theorem not_supported_perpetual : ¬DuesSupported datedEnvironment perpetualPlan := by
  intro supported
  have stored : perpetualPlan.secrets[token]? = some perpetualSecret := by rfl
  have due : dueTime datedEnvironment perpetualSecret.lifecycle =
      some (1767225600 * 10 ^ 9 + 3000000 * (86400 * 10 ^ 9)) := by decide
  exact absurd (supported _ _ stored _ due) (by decide)

end Sample

theorem not_reportsAlways_perpetual :
    validate Sample.datedEnvironment Sample.perpetualPlan = .ok () ∧
      ¬ReportsAlways Sample.datedEnvironment toString Sample.perpetualPlan :=
  ⟨Sample.validate_perpetualPlan,
    not_reportsAlways Sample.validate_perpetualPlan toString Sample.not_supported_perpetual⟩

namespace Sample

/-- An expiry time. -/
def expiry : String := "2027-01-01T00:00:00Z"

/-- The sample environment, which knows both times. -/
def agingEnvironment : Environment :=
  { environment with timestamp := fun text =>
      if text = creation then some (1767225600 * 10 ^ 9)
      else if text = expiry then some (1798761600 * 10 ^ 9) else none }

/-- A secret that is rotated every ninety days and expires after a year. -/
def agingSecret : Secret :=
  { tokenSecret with lifecycle :=
      { createdAt := some creation, rotateAfterDays := some 90, expiresAt := some expiry } }

/-- The secret beside another one, which only expires. -/
def agingSecrets : List (Id × Secret) :=
  [(token, agingSecret), (admin, { tokenSecret with
    source := "admin.age", lifecycle := { expiresAt := some expiry } })]

/-- The sample plan with these secrets. -/
def agingPlan : Plan := { plan with secrets := Std.TreeMap.ofList agingSecrets }

theorem validate_agingPlan : validate agingEnvironment agingPlan = .ok () :=
  validate_of_identities rfl rfl rfl (by decide) (by decide +kernel)

end Sample

theorem reportsAlways_aging : ReportsAlways Sample.agingEnvironment toString Sample.agingPlan := by
  refine (lifecycleReport_total_iff Sample.validate_agingPlan toString).1.mpr ?_
  intro id secret stored due computed
  have member := Std.TreeMap.mem_toList_iff_getElem?_eq_some.mpr stored
  have every : ∀ entry ∈ Sample.agingPlan.secrets.toList,
      ∀ time ∈ dueTime Sample.agingEnvironment entry.2.lifecycle, Supported time := by decide
  exact every _ member due computed

end Policy
end NixSeal
