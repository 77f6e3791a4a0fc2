import OptScale.PowerSchedule.Action

/-!
# PowerSchedule/Spelling — triggers the API accepts against the times the worker reads

The API tells triggers apart by the string of their time and only checks that the string can be read as
one.  A time has several spellings: without its leading zeros, and in the decimal digits of any script.  So
the worker finds no conflict among the triggers of an accepted list exactly when none of them spells the
time of another one differently (`conflictFree_iff`).
-/

open Fallible

namespace PowerScheduleController

open PowerScheduleWorker

/-! ## Reading a time -/

/-- The decimal digits of Unicode, with their values. -/
structure Decimals where
  value : Char → Option ℕ
  lt_ten : ∀ c n, value c = some n → n < 10
  ascii : ∀ n < 10, value (Char.ofNat (48 + n)) = some n
  colon : value ':' = none

variable (U : Decimals)

/-- The ASCII digits up to `n`. -/
def UpTo (n : ℕ) (c : Char) : Prop := 48 ≤ c.toNat ∧ c.toNat ≤ 48 + n

instance (n : ℕ) (c : Char) : Decidable (UpTo n c) := inferInstanceAs (Decidable (_ ∧ _))

/-- `%H`: `2[0-3]|[0-1]\d|\d` -/
def readHour : Text → Option ℕ
  | [c] => U.value c
  | [c, d] =>
    if c = '2' ∧ UpTo 3 d then (U.value d).map (20 + ·)
    else if UpTo 1 c then (U.value d).map ((c.toNat - 48) * 10 + ·)
    else none
  | _ => none

/-- `%M`: `[0-5]\d|\d` -/
def readMinute : Text → Option ℕ
  | [c] => U.value c
  | [c, d] => if UpTo 5 c then (U.value d).map ((c.toNat - 48) * 10 + ·) else none
  | _ => none

/-- `datetime.strptime(value, '%H:%M').time()`: the hour and the minute. -/
def strptime (value : Text) : Option (ℕ × ℕ) :=
  match value.splitOn ':' with
  | [hour, minute] => do
    let h ← readHour U hour
    let m ← readMinute U minute
    pure (h, m)
  | _ => none

/-! ## The validation -/

/-- A value of a trigger as it comes in; values that are no strings are told apart by a number. -/
inductive FieldValue
  | null
  | str (s : Text)
  | other (n : ℕ)
  deriving DecidableEq, Repr

/-- A trigger as it comes in. -/
inductive TriggerPayload
  | dict (members : List (Text × FieldValue))
  /-- Anything else; it may be false. -/
  | other (truth : Bool)
  deriving DecidableEq, Repr

/-- `trigger.get(key)`; of a key that comes twice the last value counts. -/
def FieldValue.get (members : List (Text × FieldValue)) (key : Text) : FieldValue :=
  ((members.filter fun m => m.1 = key).getLast?.map Prod.snd).getD .null

/-- `check_dict_attribute` -/
def checkDictAttribute (name : String) : TriggerPayload → Except Failure (List (Text × FieldValue))
  | .dict [] => .error (notProvided name)
  | .dict members => .ok members
  | .other false => .error (notProvided name)
  | .other true => .error (.wrongArguments .OE0344 [name])

/-- The keys a trigger has to have. -/
def required : List Text := ["action".toList, "time".toList]

/-- The loop of `_validate_triggers`, with the times so far. -/
def validateEach : List TriggerPayload → List FieldValue → Except Failure Unit
  | [], _ => .ok ()
  | trigger :: triggers, times => do
    let members ← checkDictAttribute "trigger" trigger
    require (∀ m ∈ members, m.1 ∈ required)
      (.wrongArguments .OE0212 ((members.filter fun m => m.1 ∉ required).map fun m => String.ofList m.1))
    require (∀ key ∈ required, key ∈ members.map Prod.fst) (notProvided "trigger")
    let time := FieldValue.get members "time".toList
    require (time ∉ times) (.wrongArguments .OE0562 [])
    validateEach triggers (times ++ [time])

/-- `_validate_triggers`, of a list. -/
def validateTriggers (triggers : List TriggerPayload) : Except Failure Unit := do
  require (triggers ≠ []) (notProvided "triggers")
  validateEach triggers []

/-- The validator of `HMTimeString`. -/
def validateTime : FieldValue → Except Failure Text
  | .null => .error (notProvided "time")
  | .str value => do
    require (strptime U value).isSome (.wrongArguments .OE0550 ["time"])
    pure value
  | .other _ => .error (.wrongArguments .OE0550 ["time"])

/-- The validator of `PowerScheduleAction`; a missing one fails the column. -/
def validateAction : FieldValue → Except Failure PowerAction
  | .null => .error (.wrongArguments .OE0003 [])
  | .str value =>
    if value = "power_on".toList then .ok .POWER_ON
    else if value = "power_off".toList then .ok .POWER_OFF
    else .error (.wrongArguments .OE0287 [])
  | .other _ => .error (.wrongArguments .OE0287 [])

/-- One row of `_create_triggers`. -/
def createTrigger (trigger : TriggerPayload) : Except Failure Trigger := do
  let members ← checkDictAttribute "trigger" trigger
  let time ← validateTime U (FieldValue.get members "time".toList)
  let action ← validateAction (FieldValue.get members "action".toList)
  pure ⟨time, action⟩

/-- The triggers of a schedule, from the list that comes in. -/
def acceptTriggers (triggers : List TriggerPayload) : Except Failure (List Trigger) := do
  validateTriggers triggers
  triggers.mapM (createTrigger U)

/-! ## Spellings -/

/-- The values of the digits of an hour or a minute, with the leading zero that may be left out. -/
def paddedDigits (part : Text) : List (Option ℕ) :=
  List.replicate (2 - part.length) (some 0) ++ part.map U.value

/-- A time string up to leading zeros and the script of its digits. -/
def spelled (value : Text) : List (List (Option ℕ)) := (value.splitOn ':').map (paddedDigits U)

/-- The two digits of a number below 100. -/
def twoDigits (n : ℕ) : List (Option ℕ) := [some (n / 10), some (n % 10)]

variable {U}

theorem value_of_upTo {n : ℕ} (hn : n ≤ 9) {c : Char} (h : UpTo n c) :
    U.value c = some (c.toNat - 48) ∧ c.toNat - 48 ≤ n := by
  obtain ⟨hlow, hhigh⟩ := h
  have hascii := U.ascii (c.toNat - 48) (by omega)
  rw [Nat.add_sub_cancel' hlow, Char.ofNat_toNat] at hascii
  exact ⟨hascii, by omega⟩

theorem paddedDigits_single {c : Char} {n : ℕ} (h : U.value c = some n) :
    paddedDigits U [c] = twoDigits n := by
  have hlt := U.lt_ten c n h
  rw [twoDigits, Nat.div_eq_of_lt hlt, Nat.mod_eq_of_lt hlt]
  simp [paddedDigits, h]

theorem paddedDigits_pair {c d : Char} {m n : ℕ} (h : U.value c = some m)
    (h' : U.value d = some n) : paddedDigits U [c, d] = twoDigits (m * 10 + n) := by
  have hlt := U.lt_ten d n h'
  have hdiv : (m * 10 + n) / 10 = m := by omega
  have hmod : (m * 10 + n) % 10 = n := by omega
  rw [twoDigits, hdiv, hmod]
  simp [paddedDigits, h, h']

/-- **The digits of an hour** are those of its spelling. -/
theorem paddedDigits_of_readHour {part : Text} {hour : ℕ} (h : readHour U part = some hour) :
    paddedDigits U part = twoDigits hour := by
  rcases part with _ | ⟨c, _ | ⟨d, _ | ⟨e, part⟩⟩⟩
  · cases h
  · exact paddedDigits_single h
  · simp only [readHour] at h
    split_ifs at h with htwo hone
    · obtain ⟨rfl, -⟩ := htwo
      obtain ⟨n, hn, rfl⟩ := Option.map_eq_some_iff.mp h
      exact paddedDigits_pair (U.ascii 2 (by decide)) hn
    · obtain ⟨n, hn, rfl⟩ := Option.map_eq_some_iff.mp h
      exact paddedDigits_pair (value_of_upTo (by decide) hone).1 hn
  · cases h

/-- **The digits of a minute** are those of its spelling. -/
theorem paddedDigits_of_readMinute {part : Text} {minute : ℕ} (h : readMinute U part = some minute) :
    paddedDigits U part = twoDigits minute ∧ minute < 60 := by
  rcases part with _ | ⟨c, _ | ⟨d, _ | ⟨e, part⟩⟩⟩
  · cases h
  · exact ⟨paddedDigits_single h, (U.lt_ten c minute h).trans (by decide)⟩
  · simp only [readMinute] at h
    split_ifs at h with hfive
    obtain ⟨n, hn, rfl⟩ := Option.map_eq_some_iff.mp h
    obtain ⟨hc, hle⟩ := value_of_upTo (U := U) (by decide) hfive
    exact ⟨paddedDigits_pair hc hn, by have := U.lt_ten d n hn; omega⟩
  · cases h

theorem twoDigits_inj {m n : ℕ} : twoDigits m = twoDigits n ↔ m = n := by
  constructor
  · intro h
    simp only [twoDigits, List.cons.injEq, Option.some.injEq, and_true] at h
    omega
  · rintro rfl
    rfl

theorem strptime_eq_some {value : Text} {time : ℕ × ℕ} (h : strptime U value = some time) :
    spelled U value = [twoDigits time.1, twoDigits time.2] ∧ time.2 < 60 := by
  unfold strptime at h
  split at h
  · rename_i hour minute hsplit
    obtain ⟨m, hm, h⟩ := Option.bind_eq_some_iff.mp h
    obtain ⟨n, hn, h⟩ := Option.bind_eq_some_iff.mp h
    obtain rfl := Option.some.inj h
    obtain ⟨hminute, hlt⟩ := paddedDigits_of_readMinute hn
    rw [spelled, hsplit, List.map_cons, List.map_cons, List.map_nil, paddedDigits_of_readHour hm, hminute]
    exact ⟨rfl, hlt⟩
  · cases h

/-- **Two strings spell one time** exactly when they are one up to leading zeros and scripts. -/
theorem spelled_eq_iff {a b : Text} {s t : ℕ × ℕ} (ha : strptime U a = some s)
    (hb : strptime U b = some t) : spelled U a = spelled U b ↔ s = t := by
  rw [(strptime_eq_some ha).1, (strptime_eq_some hb).1]
  simp only [List.cons.injEq, twoDigits_inj, and_true]
  exact Prod.ext_iff.symm

/-! ## The worker's day -/

variable (U) in
/-- A day of a time zone without a clock change, from its midnight on. -/
def steadyDay (now midnight : ℤ) : Today where
  now
  localTimeToUtc value :=
    match strptime U value with
    | none => .error (.python "ValueError")
    | some (hour, minute) => .ok (midnight + hour * 3600 + minute * 60)

variable (U) in
/-- The triggers denote pairwise distinct times of day, and on no day without a clock change the worker
finds them in conflict. -/
def ConflictFree (triggers : List Trigger) : Prop :=
  (triggers.map fun t => strptime U t.time).Nodup ∧
    ∀ now midnight, ∀ schedule : PowerSchedule, schedule.triggers = triggers → ∀ result,
      (getAction (steadyDay U now midnight) schedule result).1 ≠
        .error (.python "PowerScheduleException")

/-- The instant of a time of day. -/
def instantOf (midnight : ℤ) (time : Option (ℕ × ℕ)) : ℤ :=
  midnight + (time.getD (0, 0)).1 * 3600 + (time.getD (0, 0)).2 * 60

theorem instantOf_inj {midnight : ℤ} {a b : Text} (ha : (strptime U a).isSome) (hb : (strptime U b).isSome) :
    instantOf midnight (strptime U a) = instantOf midnight (strptime U b) ↔
      strptime U a = strptime U b := by
  obtain ⟨s, hs⟩ := Option.isSome_iff_exists.mp ha
  obtain ⟨t, ht⟩ := Option.isSome_iff_exists.mp hb
  have hs60 := (strptime_eq_some hs).2
  have ht60 := (strptime_eq_some ht).2
  rw [hs, ht, Option.some.injEq, Prod.ext_iff]
  simp only [instantOf, Option.getD_some]
  constructor
  · intro h
    omega
  · rintro ⟨h, h'⟩
    rw [h, h']

theorem localTimeToUtc_steadyDay {now midnight : ℤ} {value : Text} (h : (strptime U value).isSome) :
    (steadyDay U now midnight).localTimeToUtc value = .ok (instantOf midnight (strptime U value)) := by
  obtain ⟨s, hs⟩ := Option.isSome_iff_exists.mp h
  simp only [steadyDay, hs]
  rfl

/-- **Readable times are in conflict** exactly when two of them are one. -/
theorem timeActionMap_conflict_iff {now midnight : ℤ} {ts : List Trigger}
    (hts : ∀ t ∈ ts, (strptime U t.time).isSome) : ∀ {map : List (ℤ × PowerAction)},
      (map.map Prod.fst).Nodup →
      (timeActionMap (steadyDay U now midnight) ts map = .error (.python "PowerScheduleException") ↔
        ¬ (map.map Prod.fst ++ ts.map fun t => instantOf midnight (strptime U t.time)).Nodup) := by
  induction ts with
  | nil =>
    intro map hmap
    rw [List.map_nil, List.append_nil]
    exact iff_of_false (fun h => nomatch h) (not_not_intro hmap)
  | cons t ts ih =>
    intro map hmap
    obtain ⟨ht, hts⟩ := List.forall_mem_cons.mp hts
    rw [timeActionMap, localTimeToUtc_steadyDay ht, ok_bind, List.map_cons]
    by_cases hnew : instantOf midnight (strptime U t.time) ∈ map.map Prod.fst
    · rw [require_not (not_not_intro hnew), error_bind]
      refine iff_of_true rfl fun h => ?_
      exact (List.nodup_append.mp h).2.2 _ hnew _ List.mem_cons_self rfl
    · rw [require_of hnew, ok_bind, ih hts]
      · rw [List.map_append, List.append_assoc]
        rfl
      · rw [List.map_append, List.nodup_append]
        refine ⟨hmap, List.nodup_singleton _, fun x hx y hy hxy => hnew ?_⟩
        obtain rfl : y = instantOf midnight (strptime U t.time) := List.mem_singleton.mp hy
        exact hxy ▸ hx

theorem searchPeriods_eq_error {run : ℤ × ℤ} {periods : List (ℤ × ℤ)} :
    ∀ {candidate : Option ℤ} {e : Failure}, searchPeriods run periods candidate = .error e →
      e = .python "ValueError" := by
  induction periods with
  | nil => exact fun h => nomatch h
  | cons p periods ih =>
    intro candidate e h
    simp only [searchPeriods] at h
    split_ifs at h
    · cases hmax : ([p.1, p.2].filter (· ≤ run.2)).max? with
      | none =>
        rw [hmax] at h
        exact (Except.error.inj h).symm
      | some t =>
        rw [hmax] at h
        cases h
    · exact ih h
    · exact ih h

theorem requiredTime_eq_error {D : Today} {lastEval : ℤ} {ts : List ℤ} {e : Failure}
    (h : requiredTime D lastEval ts = .error e) : e = .python "ValueError" := by
  unfold requiredTime at h
  split at h
  · cases h
  · exact searchPeriods_eq_error h

/-- What `get_action` raises. -/
theorem getAction_eq_error {D : Today} {schedule : PowerSchedule} {result result' : Result} {e : Failure}
    (h : getAction D schedule result = (.error e, result')) :
    timeActionMap D schedule.triggers [] = .error e ∨ e = .python "ValueError" ∨
      e = .python "KeyError" := by
  rw [getAction] at h
  obtain h | ⟨map, t, -, h⟩ := Session.bind_eq_error.mp h
  · exact Or.inl (Session.read_eq_error.mp h).1
  obtain h | ⟨time, t, -, h⟩ := Session.bind_eq_error.mp h
  · exact Or.inr (Or.inl (requiredTime_eq_error (Session.read_eq_error.mp h).1))
  cases time with
  | none => cases h
  | some time =>
    obtain h | ⟨action, t, -, h⟩ := Session.bind_eq_error.mp h
    · have hfail := (Session.read_eq_error.mp h).1
      cases hlookup : map.lookup time with
      | none =>
        rw [hlookup] at hfail
        exact Or.inr (Or.inr (Except.error.inj hfail).symm)
      | some action =>
        rw [hlookup] at hfail
        cases hfail
    · cases h

/-- **`get_action` raises a conflict** exactly where it is found among the triggers. -/
theorem getAction_conflict_iff {D : Today} {schedule : PowerSchedule} {result : Result} :
    (getAction D schedule result).1 = .error (.python "PowerScheduleException") ↔
      timeActionMap D schedule.triggers [] = .error (.python "PowerScheduleException") := by
  constructor
  · intro h
    obtain h | h | h := getAction_eq_error (Prod.ext h rfl :
      getAction D schedule result = (.error (.python "PowerScheduleException"), _))
    · exact h
    · exact absurd (Failure.python.inj h) (by decide)
    · exact absurd (Failure.python.inj h) (by decide)
  · intro h
    have hrun : getAction D schedule result = (.error (.python "PowerScheduleException"), result) :=
      Session.bind_of_error (by rw [Session.read, h])
    rw [hrun]

/-! ## Accepted lists -/

/-- The times of an accepted list can be read. -/
theorem readable_of_accept {payload : List TriggerPayload} {triggers : List Trigger}
    (h : acceptTriggers U payload = .ok triggers) : ∀ t ∈ triggers, (strptime U t.time).isSome := by
  obtain ⟨_, -, h⟩ := bind_eq_ok.mp h
  intro t ht
  obtain ⟨p, -, hp⟩ := (mem_of_mapM_eq_ok h t).mp ht
  simp only [createTrigger, bind_eq_ok, pure_eq_ok] at hp
  obtain ⟨members, -, time, htime, action, -, rfl⟩ := hp
  unfold validateTime at htime
  split at htime
  · cases htime
  · simp only [bind_eq_ok, require_eq_ok, pure_eq_ok] at htime
    obtain ⟨_, hsome, rfl⟩ := htime
    exact hsome
  · cases htime

/-- **The triggers of an accepted list never conflict** in the worker exactly when no two of them are one
time string up to leading zeros and the script of the digits. -/
theorem conflictFree_iff {p : List TriggerPayload} {triggers : List Trigger}
    (h : acceptTriggers U p = .ok triggers) :
    ConflictFree U triggers ↔ triggers.Pairwise fun s t => spelled U s.time ≠ spelled U t.time := by
  have hread := readable_of_accept h
  have hspelled : (triggers.map fun t => strptime U t.time).Nodup ↔
      triggers.Pairwise fun s t => spelled U s.time ≠ spelled U t.time := by
    rw [List.Nodup, List.pairwise_map]
    refine List.Pairwise.iff_of_mem fun {s t} hs ht => ?_
    obtain ⟨a, ha⟩ := Option.isSome_iff_exists.mp (hread s hs)
    obtain ⟨b, hb⟩ := Option.isSome_iff_exists.mp (hread t ht)
    rw [ha, hb, Ne, Ne, spelled_eq_iff ha hb, Option.some.injEq]
  rw [ConflictFree, hspelled]
  refine ⟨fun h => h.1, fun hpair => ⟨hpair, fun now midnight schedule hschedule result hconflict => ?_⟩⟩
  subst hschedule
  have hnodup : (([] : List (ℤ × PowerAction)).map Prod.fst).Nodup := List.nodup_nil
  refine (timeActionMap_conflict_iff hread hnodup).mp (getAction_conflict_iff.mp hconflict) ?_
  rw [List.map_nil, List.nil_append, List.Nodup, List.pairwise_map]
  refine (List.pairwise_map.mp (hspelled.mpr hpair)).imp_of_mem fun {s t} hs ht hne => ?_
  exact fun heq => hne ((instantOf_inj (hread s hs) (hread t ht)).mp heq)

/-! ### One o'clock, twice -/

/-- The digits of ASCII alone. -/
def asciiDecimals : Decimals where
  value c := if UpTo 9 c then some (c.toNat - 48) else none
  lt_ten c n h := by
    split at h
    · rename_i hc
      obtain rfl := Option.some.inj h
      unfold UpTo at hc
      omega
    · cases h
  ascii := by decide
  colon := by decide

/-- A trigger as it comes in. -/
def payload (time action : String) : TriggerPayload :=
  .dict [("time".toList, .str time.toList), ("action".toList, .str action.toList)]

/-- Two times, one of them without its leading zero. -/
theorem conflictFree_oneAndTwo : ConflictFree asciiDecimals
      [⟨"1:00".toList, .POWER_ON⟩, ⟨"02:00".toList, .POWER_OFF⟩] ↔
    [(⟨"1:00".toList, .POWER_ON⟩ : Trigger), ⟨"02:00".toList, .POWER_OFF⟩].Pairwise fun s t =>
      spelled asciiDecimals s.time ≠ spelled asciiDecimals t.time :=
  conflictFree_iff (p := [payload "1:00" "power_on", payload "02:00" "power_off"])
    (by decide +kernel)

/-- A schedule that is switched on and off at one. -/
def onAndOff : PowerSchedule where
  id := 0
  organizationId := 0
  name := []
  enabled := true
  triggers := [⟨"1:00".toList, .POWER_ON⟩, ⟨"01:00".toList, .POWER_OFF⟩]
  lastEval := 0

/-- **A list with both spellings of a time is accepted**, and the worker finds a conflict in it. -/
theorem accepted_conflict :
    acceptTriggers asciiDecimals [payload "1:00" "power_on", payload "01:00" "power_off"] =
      .ok onAndOff.triggers ∧
    (getAction (steadyDay asciiDecimals 10 0) onAndOff {}).1 =
      .error (.python "PowerScheduleException") := by
  constructor <;> decide +kernel

end PowerScheduleController
