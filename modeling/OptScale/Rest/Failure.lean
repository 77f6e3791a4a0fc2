import OptScale.Foundations.Fallible

/-!
# Rest/Failure — what a controller raises

The exceptions of `tools.optscale_exceptions.common_exc`, each with its code from `Err` and the
parameters the code's text is filled with (`OE` codes are the rest service's, `OA` codes the auth
service's).  An exception the code does not raise on purpose (a missing key, an exhausted iterator)
is `Failure.python`; one that another service's answer causes is `Failure.http`.
-/

/-- An object id.  Only equality of ids is ever used, so a uuid is its number. -/
abbrev Uuid := ℕ

/-- The codes of `Err` the modelled controllers raise. -/
inductive Err
  /-- `%s %s not found` -/
  | OE0002
  /-- `Database error: %s` -/
  | OE0003
  /-- `%s %s doesn't exist` -/
  | OE0005
  /-- `%s with name "%s" already exists` -/
  | OE0149
  /-- `Action "%s" is not supported` -/
  | OE0166
  /-- `Non unique parameters in get request` -/
  | OE0177
  /-- `Parameter "%s" is immutable` -/
  | OE0211
  /-- `Unexpected parameters: %s` -/
  | OE0212
  /-- `%s should be a string` -/
  | OE0214
  /-- `%s should contain %s characters` -/
  | OE0215
  /-- `%s is not provided` -/
  | OE0216
  /-- `Invalid %s` -/
  | OE0217
  /-- `%s should be a string with valid JSON` -/
  | OE0219
  /-- `%s should be integer` -/
  | OE0223
  /-- `Value of "%s" should be between %s and %s` -/
  | OE0224
  /-- `%s should be True or False` -/
  | OE0226
  /-- `Unauthorized` -/
  | OE0235
  /-- `Bad request: %s` -/
  | OE0287
  /-- `%s should be a dictionary` -/
  | OE0344
  /-- `Current user is not a member in provided organization` -/
  | OE0378
  /-- `Target owner %s doesn't have enough permissions for target pool` -/
  | OE0379
  /-- `Current user doesn't have enough permissions for target pool` -/
  | OE0380
  /-- `Current user doesn't have enough permissions for target cloud resource %s` -/
  | OE0381
  /-- `Invalid resource type: %s` -/
  | OE0384
  /-- `%s should be a list` -/
  | OE0385
  /-- `Current user can't accept/decline this assignment request` -/
  | OE0391
  /-- `Cloud account for this account already exist` -/
  | OE0402
  /-- `Cloud account %s already exists for organization %s` -/
  | OE0404
  /-- `Child pool limit value exceeds parent limit` -/
  | OE0407
  /-- `%s %s has not deleted children` -/
  | OE0411
  /-- `Resources with ids %s were not found` -/
  | OE0412
  /-- `Parent pool limit with value %s and id %s is less than the limit of the child pools` -/
  | OE0414
  /-- `%s should not contain only whitespaces` -/
  | OE0416
  /-- `Current user can't cancel this assignment request` -/
  | OE0419
  /-- `Can't create assignment request for the same user` -/
  | OE0424
  /-- `Unsupported condition type %s` -/
  | OE0430
  /-- `Service call error: %s` -/
  | OE0435
  /-- `Constraint with type "%s" already exists for resource "%s"` -/
  | OE0441
  /-- `Resource %s is not active` -/
  | OE0443
  /-- `Organization %s (%s) doesn't have any cloud accounts connected` -/
  | OE0445
  /-- `%s should be greater than %s` -/
  | OE0446
  /-- `Root pool can't be deleted` -/
  | OE0447
  /-- `%s of %s can't be changed` -/
  | OE0449
  /-- `%s %s does not belong to the organization` -/
  | OE0454
  /-- `The pool %s does not have default_owner_id` -/
  | OE0459
  /-- `%s can't be in past` -/
  | OE0461
  /-- `Cluster type %s already exists in organization %s` -/
  | OE0463
  /-- `Resource %s is a part of cluster` -/
  | OE0464
  /-- `%s should be float` -/
  | OE0466
  /-- `The following %s filter values do not match any object: %s` -/
  | OE0470
  /-- `Not enough permissions to extend the pool %s (%s)` -/
  | OE0471
  /-- `Environment cloud account does not support recommendations` -/
  | OE0476
  /-- `Current resource can't be shared, resource type is invalid for sharing %s` -/
  | OE0478
  /-- `%s should be False` -/
  | OE0479
  /-- `%s %s is not shareable` -/
  | OE0480
  /-- `Clustered resource %s cannot have own shareable schedule booking` -/
  | OE0481
  /-- `Shareable booking slot is already used. …` -/
  | OE0482
  /-- `Deleting of shareable booking %s is not allowed` -/
  | OE0484
  /-- `Environment resource %s cannot be not shareable` -/
  | OE0488
  /-- `Creating a shareable booking in the past is not allowed` -/
  | OE0495
  /-- `Deleting of the last organization manager is not allowed.` -/
  | OE0497
  /-- `Release of shareable booking %s is not allowed.` -/
  | OE0498
  /-- `Employee %s (%s) doesn't have enough permissions` -/
  | OE0505
  /-- `ssh_key %s does not belong to the employee %s` -/
  | OE0510
  /-- `ssh_key should be default for employee` -/
  | OE0511
  /-- `The interval between dates should be less than a year` -/
  | OE0515
  /-- `Organization limit hit for constraint %s already exists in organization %s` -/
  | OE0516
  /-- `%s or %s should be provided` -/
  | OE0517
  /-- `Parameter %s should be time string in format HH:MM` -/
  | OE0550
  /-- `Environment with name %s and resource type %s already exists` -/
  | OE0558
  /-- `Duplicated triggers for time "%s"` -/
  | OE0562
  /-- `Invalid operator type: %s` -/
  | OE0563
  /-- `Forbidden!` -/
  | OA0012
  /-- `User %s was not found` -/
  | OA0024
  deriving DecidableEq, Repr

/-- A raised exception. -/
inductive Failure
  | wrongArguments (err : Err) (params : List String)
  | notFound (err : Err) (params : List String)
  | forbidden (err : Err) (params : List String)
  | conflict (err : Err) (params : List String)
  | failedDependency (err : Err) (params : List String)
  | unauthorized (err : Err) (params : List String)
  /-- An exception of Python's own, by its class. -/
  | python (name : String)
  /-- `requests.exceptions.HTTPError`, by the status of the answer. -/
  | http (status : ℕ)
  deriving DecidableEq, Repr

/-- The status a handler answers a raised exception with. -/
def Failure.statusCode : Failure → ℕ
  | wrongArguments .. => 400
  | unauthorized .. => 401
  | forbidden .. => 403
  | notFound .. => 404
  | conflict .. => 409
  | failedDependency .. => 424
  | python _ => 500
  | http status => status

/-- `MAX_32_INT` of `utils.py`. -/
def maxInt32 : ℤ := 2 ^ 31 - 1

open Fallible

/-- `raise_not_provided_exception`. -/
def notProvided (name : String) : Failure := .wrongArguments .OE0216 [name]

/-- `check_int_attribute`, with its default bounds; the value checked is the one to go on with. -/
def checkIntAttribute (name : String) (value : Option ℤ) : Except Failure ℕ := do
  let v ← orFail value (notProvided name)
  require (0 ≤ v ∧ v ≤ maxInt32)
    (.wrongArguments .OE0224 [name, toString (0 : ℤ), toString maxInt32])
  pure v.toNat

/-- The validator of a `NullableInt` column; the value it lets through is the one stored. -/
def nullableInt (key : String) : Option ℤ → Except Failure (Option ℕ)
  | none => .ok none
  | some v => do
    require (0 ≤ v ∧ v ≤ maxInt32)
      (.wrongArguments .OE0224 [key, toString (0 : ℤ), toString maxInt32])
    pure (some v.toNat)
