import OptScale.CloudAccounts.Create

/-!
# CloudAccounts/AllOrNothing — when a refused connection leaves nothing behind

The account is committed before its pool and its rule are made, and nothing takes it back.  So a
connection that is refused later leaves a live account, and connecting is all or nothing exactly
where either nothing is stored at all or all that comes later goes through
(`allOrNothing_iff`).
-/

open Fallible

namespace CloudAccountController

variable (S : Services)

/-! ## What is claimed -/

/-- No live row of these tables is the call's. -/
structure NothingCreated (db db' : Database) : Prop where
  cloudAccounts : ∀ c ∈ db'.cloudAccounts.rows, c.deletedAt = 0 → c ∈ db.cloudAccounts.rows
  costModels : ∀ c ∈ db'.costModels.rows, c.deletedAt = 0 → c ∈ db.costModels.rows
  discoveryInfos : ∀ i ∈ db'.discoveryInfos, i.deletedAt = 0 → i ∈ db.discoveryInfos
  pools : ∀ p ∈ db'.pools.rows, ¬ p.Deleted → p ∈ db.pools.rows
  rules : ∀ r ∈ db'.rules.rows, r.deletedAt = 0 → r ∈ db.rules.rows

theorem NothingCreated.refl (db : Database) : NothingCreated db db :=
  ⟨fun _ h _ => h, fun _ h _ => h, fun _ h _ => h, fun _ h _ => h, fun _ h _ => h⟩

/-- A connection that raises leaves nothing behind. -/
def AllOrNothing (a : CreateArgs) (db : Database) : Prop :=
  ∀ e db', create S a db = (.error e, db') → NothingCreated db db'

/-- Where the pool's name is asked for, there is one, and no live pool under the parent has it. -/
def NameSound (a : CreateArgs) (db : Database) : Prop :=
  ∀ ca warnings stored db', checkCreate S a db = .ok (ca, warnings) →
    storeRows a ca db = (.ok stored, db') →
    ∃ name, generatePoolName S db'.pools stored = .ok name ∧
      ∀ parent ∈ parentPool S db'.pools stored,
        ¬ PoolController.Taken S db'.pools stored.organizationId parent.id name

/-! ## The condition -/

/-- The value given for the cost model passes the check of the account's type. -/
def CostModelAccepted (a : CreateArgs) : Prop :=
  ∀ ctrl ∈ costModelCtrl a.type, ctrl.2 a.costModel = .ok ()

/-- The name with the number at its end raised, or with a ` 1` if it ends in none. -/
def numbered (name : Text) : Text :=
  let last := (Text.words name).getLastD []
  if last.isDigit then name.take (name.length - last.length) ++ Text.ofNat (last.toNat + 1)
  else name ++ [' ', '1']

/-- The account's pool can be named: it has the account's own name where no pool starts with it;
else the latest pool that does has a letter or a digit of ASCII in its name, and its name numbered
on is short enough and free. -/
def NameFree (pools : Table Pool.id) (ca : CloudAccount) (parentId : Uuid) : Prop :=
  match (poolsForCloud S pools ca).head? with
  | none => ¬ PoolController.Taken S pools ca.organizationId parentId ca.name
  | some latest => Text.words latest.name ≠ [] ∧ (numbered latest.name).length ≤ 255 ∧
      ¬ PoolController.Taken S pools ca.organizationId parentId (numbered latest.name)

/-- The employee the pool is made for: the parent pool's owner for a child account, the caller
otherwise. -/
def OwnedBy (ca : CloudAccount) (parent : Pool) (userId : Option Uuid) (owner : Employee) : Prop :=
  if ca.parentId.isSome then
    (parent.defaultOwnerId >>= S.defaultOwner) = some owner ∧ userId = some owner.authUserId
  else S.userId = .ok userId ∧ S.employeeByUser userId ca.organizationId = some owner

/-- **What a connection needs once the account is stored.** -/
structure ConnectsFor (pools : Table Pool.id) (rules : Table Rule.id) (a : CreateArgs)
    (ca : CloudAccount) (warnings : List String) (parent : Pool) (userId : Option Uuid)
    (owner : Employee) : Prop where
  /-- The organization's pool is live and its own, … -/
  under : S.organizationPool ca.organizationId = some parent.id ∧ parent ∈ pools.rows ∧
    ¬ parent.Deleted ∧ parent.organizationId = ca.organizationId
  /-- its children stay within its limit, … -/
  room : PoolController.childrenTotalSum pools parent.id ≤ parent.limit
  /-- the owner is a live employee, … -/
  owned : OwnedBy S ca parent userId owner ∧ S.liveEmployee owner.id
  /-- the pool can be named, … -/
  named : NameFree S pools ca parent.id
  /-- the rule's name is short enough and free, … -/
  ruleNamed : (ruleName S ca).length ≤ 255 ∧
    ∀ r ∈ RuleController.getRules rules ca.organizationId,
      S.collation.equal r.name (ruleName S ca) = false
  /-- the rule has a creator, … -/
  created : (S.employeeByUser userId ca.organizationId).isSome
  /-- an owner who may manage the new pool, … -/
  managed : ∃ e ∈ S.employee owner.id ca.organizationId,
    S.authorizeUserList e.authUserId (S.genId.next (pools.rows.map Pool.id)) = .ok true
  /-- and a free priority, … -/
  ranked : ∀ r ∈ RuleController.getRules rules ca.organizationId,
    r.priority ≠ RuleController.defaultPriority rules ca.organizationId
  /-- and the other services answer. -/
  answered : S.publish "pool_created" = .ok () ∧ S.publish "rule_created" = .ok () ∧
    announce S a ca warnings = .ok ()

/-- There is a parent pool and an owner for whom the connection has what it needs. -/
def Connects (pools : Table Pool.id) (rules : Table Rule.id) (a : CreateArgs) (ca : CloudAccount)
    (warnings : List String) : Prop :=
  ∃ parent userId owner, ConnectsFor S pools rules a ca warnings parent userId owner

variable {S}

/-! ## The name -/

theorem nextName_eq_ok {name next : Text} :
    nextName name = .ok next ↔ Text.words name ≠ [] ∧ numbered name = next := by
  unfold nextName numbered
  cases h : (Text.words name).getLast? with
  | none =>
    have hnil : Text.words name = [] := List.getLast?_eq_none_iff.mp h
    simp [hnil]
  | some last =>
    have hne : Text.words name ≠ [] := by
      intro hnil
      rw [hnil] at h
      exact nomatch h
    rw [List.getLastD_eq_getLast?, h]
    simp only [orFail_some, ok_bind, Option.getD_some, ne_eq, hne, not_false_eq_true, true_and]
    split <;> simp

theorem numbered_ne_space (name : Text) :
    1 ≤ (numbered name).length ∧ (numbered name).isSpace = false := by
  unfold numbered
  dsimp only
  split
  · obtain ⟨c, hc, hspace⟩ := Text.exists_mem_ofNat
      (((Text.words name).getLastD []).toNat + 1)
    have hmem := List.mem_append_right
      (name.take (name.length - ((Text.words name).getLastD []).length)) hc
    exact ⟨List.length_pos_of_mem hmem, Text.not_isSpace_of_mem hmem hspace⟩
  · have hmem : '1' ∈ name ++ [' ', '1'] := by simp
    exact ⟨List.length_pos_of_mem hmem, Text.not_isSpace_of_mem hmem (by decide)⟩

/-- **A name is found that a new pool can bear exactly when the pool can be named.** -/
theorem nameFree_iff {pools : Table Pool.id} {ca : CloudAccount} {parentId : Uuid}
    (hca : (1 ≤ ca.name.length ∧ ca.name.length ≤ 255) ∧ ca.name.isSpace = false) :
    NameFree S pools ca parentId ↔
      ∃ name, generatePoolName S pools ca = .ok name ∧ name.length ≤ 255 ∧ 1 ≤ name.length ∧
        name.isSpace = false ∧ ¬ PoolController.Taken S pools ca.organizationId parentId name := by
  unfold NameFree generatePoolName
  cases (poolsForCloud S pools ca).head? with
  | none =>
    constructor
    · exact fun h => ⟨ca.name, rfl, hca.1.2, hca.1.1, hca.2, h⟩
    · rintro ⟨name, hname, -, -, -, htaken⟩
      obtain rfl : ca.name = name := Except.ok.inj hname
      exact htaken
  | some latest =>
    simp only [nextName_eq_ok]
    constructor
    · rintro ⟨hwords, hlength, htaken⟩
      have hspace := numbered_ne_space latest.name
      exact ⟨_, ⟨hwords, rfl⟩, hlength, hspace.1, hspace.2, htaken⟩
    · rintro ⟨name, ⟨hwords, rfl⟩, hlength, -, -, htaken⟩
      exact ⟨hwords, hlength, htaken⟩

/-! ## What comes after the account is stored -/

theorem defaultEmployee_eq_ok {ca : CloudAccount} {parent : Pool} {userId : Option Uuid}
    {owner : Employee} :
    defaultEmployee S ca (some parent) = .ok (userId, owner) ↔ OwnedBy S ca parent userId owner := by
  unfold defaultEmployee OwnedBy
  split
  · simp only [orFail_some, ok_bind, bind_eq_ok, orFail_eq_ok, pure_eq_ok, Prod.mk.injEq]
    constructor
    · rintro ⟨o, ho, rfl, rfl⟩
      exact ⟨ho, rfl⟩
    · rintro ⟨ho, hu⟩
      exact ⟨owner, ho, hu.symm, rfl⟩
  · simp only [bind_eq_ok, orFail_eq_ok, pure_eq_ok, Prod.mk.injEq]
    constructor
    · rintro ⟨u, hu, o, ho, rfl, rfl⟩
      exact ⟨hu, ho⟩
    · rintro ⟨hu, ho⟩
      exact ⟨userId, hu, owner, ho, rfl, rfl⟩

theorem parentPool_eq_some {pools : Table Pool.id} {ca : CloudAccount} {parent : Pool} :
    parentPool S pools ca = some parent ↔
      S.organizationPool ca.organizationId = some parent.id ∧ parent ∈ pools.rows := by
  unfold parentPool
  constructor
  · intro h
    obtain ⟨id, hid, hget⟩ := Option.bind_eq_some_iff.mp h
    obtain ⟨hmem, rfl⟩ := Table.get?_eq_some.mp hget
    exact ⟨hid, hmem⟩
  · exact fun ⟨hid, hmem⟩ => Option.bind_eq_some_iff.mpr ⟨_, hid, Table.get?_eq_some.mpr ⟨hmem, rfl⟩⟩

theorem poolGet_eq_some {pools : Table Pool.id} {id organizationId : Uuid} {p : Pool} :
    PoolController.get pools id organizationId = some p ↔
      p ∈ pools.rows ∧ p.id = id ∧ ¬ p.Deleted ∧ p.organizationId = organizationId := by
  simp only [PoolController.get, Option.filter_eq_some_iff, Table.get?_eq_some, decide_eq_true_eq,
    and_assoc]

theorem ruleName_ne_space (ca : CloudAccount) :
    1 ≤ (ruleName S ca).length ∧ (ruleName S ca).isSpace = false := by
  have hmem : '_' ∈ ruleName S ca :=
    List.mem_append_left _ (List.mem_append_right _ (List.mem_singleton.mpr rfl))
  exact ⟨List.length_pos_of_mem hmem, Text.not_isSpace_of_mem hmem (by decide)⟩

/-- **The rule is creatable when the pool is there**: what it needs of the tables beside it. -/
theorem ruleCreatable_iff {db : Database} {ca : CloudAccount} {parentId : Uuid} {name : Text}
    {userId : Option Uuid} {owner : Employee} :
    RuleController.Creatable S
        (ruleArgs S ca userId
          (PoolController.newPool S db.pools ca.organizationId parentId name owner.id) owner)
        (PoolController.store S db ca.organizationId parentId name owner.id) ↔
      ((ruleName S ca).length ≤ 255 ∧
        ∀ r ∈ RuleController.getRules db.rules ca.organizationId,
          S.collation.equal r.name (ruleName S ca) = false) ∧
      (S.employeeByUser userId ca.organizationId).isSome ∧
      (∃ e ∈ S.employee owner.id ca.organizationId,
        S.authorizeUserList e.authUserId (S.genId.next (db.pools.rows.map Pool.id)) = .ok true) ∧
      ∀ r ∈ RuleController.getRules db.rules ca.organizationId,
        r.priority ≠ RuleController.defaultPriority db.rules ca.organizationId := by
  have hspace := ruleName_ne_space (S := S) ca
  constructor
  · exact fun h => ⟨⟨h.length.2, h.not_taken⟩, h.creator, h.owner, h.priority⟩
  · rintro ⟨⟨hlength, htaken⟩, hcreator, howner, hpriority⟩
    refine ⟨⟨hspace.1, hlength⟩, hspace.2, hcreator, htaken, howner, ?_, hpriority⟩
    exact ⟨_, PoolController.newPool_mem_store, rfl, fun hdeleted => hdeleted rfl, rfl⟩

/-- **What a connection needs, as the controllers of pools and rules see it.** -/
theorem connectsFor_iff {db : Database} {a : CreateArgs} {ca : CloudAccount}
    {warnings : List String} {parent : Pool} {userId : Option Uuid} {owner : Employee}
    (hca : (1 ≤ ca.name.length ∧ ca.name.length ≤ 255) ∧ ca.name.isSpace = false) :
    ConnectsFor S db.pools db.rules a ca warnings parent userId owner ↔
      parentPool S db.pools ca = some parent ∧ OwnedBy S ca parent userId owner ∧
        ∃ name, generatePoolName S db.pools ca = .ok name ∧
          PoolController.Creatable S db.pools ca.organizationId parent.id name owner.id ∧
          RuleController.Creatable S
            (ruleArgs S ca userId
              (PoolController.newPool S db.pools ca.organizationId parent.id name owner.id) owner)
            (PoolController.store S db ca.organizationId parent.id name owner.id) ∧
          S.publish "pool_created" = .ok () ∧ S.publish "rule_created" = .ok () ∧
            announce S a ca warnings = .ok () := by
  simp only [ruleCreatable_iff, parentPool_eq_some]
  constructor
  · rintro ⟨⟨hpool, hparent, hlive, horg⟩, hroom, ⟨howned, howner⟩, hname, hrule, hcreator,
      hmanages, hpriority, hservices⟩
    obtain ⟨name, hgen, hlength, hpos, hspace, htaken⟩ := (nameFree_iff hca).mp hname
    refine ⟨⟨hpool, hparent⟩, howned, name, hgen, ⟨⟨hpos, hlength⟩, hspace, htaken, ?_, howner⟩,
      ⟨hrule, hcreator, hmanages, hpriority⟩, hservices⟩
    exact ⟨parent, poolGet_eq_some.mpr ⟨hparent, rfl, hlive, horg⟩, hroom⟩
  · rintro ⟨⟨hpool, hparent⟩, howned, name, hgen, hcreatable,
      ⟨hrule, hcreator, hmanages, hpriority⟩, hservices⟩
    obtain ⟨p, hp, hroom⟩ := hcreatable.parent
    obtain ⟨hmem, hid, hlive, horg⟩ := poolGet_eq_some.mp hp
    obtain rfl := db.pools.eq_of_key hmem hparent hid
    exact ⟨⟨hpool, hparent, hlive, horg⟩, hroom, ⟨howned, hcreatable.owner⟩,
      (nameFree_iff hca).mpr ⟨name, hgen, hcreatable.length.2, hcreatable.length.1,
        hcreatable.not_isSpace, hcreatable.not_taken⟩,
      hrule, hcreator, hmanages, hpriority, hservices⟩

/-- **The rest of `create` goes through exactly when the connection has what it needs.** -/
theorem connect_succeeds (db : Database) (a : CreateArgs) {ca : CloudAccount}
    (warnings : List String)
    (hca : (1 ≤ ca.name.length ∧ ca.name.length ≤ 255) ∧ ca.name.isSpace = false) :
    (connect S a ca warnings).Succeeds db ↔ Connects S db.pools db.rules a ca warnings := by
  simp only [connect, Session.succeeds_read_bind, Connects, connectsFor_iff hca]
  constructor
  · rintro ⟨⟨userId, owner⟩, howner, name, hname, parent, hparent, hrest⟩
    have hparent := orFail_eq_ok.mp hparent
    rw [hparent] at howner
    obtain ⟨pool, db₁, hpool, hrest⟩ := Session.succeeds_bind.mp hrest
    obtain ⟨hcreatable, hpublish, rfl, rfl⟩ := PoolController.create_eq_ok.mp hpool
    obtain ⟨rule, db₂, hrule, hrest⟩ := Session.succeeds_bind.mp hrest
    obtain ⟨hruleCreatable, hrulePublish⟩ := RuleController.createRule_succeeds.mp ⟨rule, db₂, hrule⟩
    obtain ⟨_, hannounce, -⟩ := Session.succeeds_read_bind.mp hrest
    exact ⟨parent, userId, owner, hparent, defaultEmployee_eq_ok.mp howner, name, hname,
      hcreatable, hruleCreatable, hpublish, hrulePublish, hannounce⟩
  · rintro ⟨parent, userId, owner, hparent, howner, name, hname, hcreatable, hruleCreatable,
      hpublish, hrulePublish, hannounce⟩
    have howner := defaultEmployee_eq_ok.mpr howner
    rw [← hparent] at howner
    obtain ⟨rule, db₂, hrule⟩ :=
      RuleController.createRule_succeeds.mpr ⟨hruleCreatable, hrulePublish⟩
    refine ⟨(userId, owner), howner, name, hname, parent, orFail_eq_ok.mpr hparent,
      Session.succeeds_bind.mpr ⟨_, _,
        PoolController.create_eq_ok.mpr ⟨hcreatable, hpublish, rfl, rfl⟩,
        Session.succeeds_bind.mpr ⟨rule, db₂, hrule, ?_⟩⟩⟩
    exact Session.succeeds_read_bind.mpr ⟨(), hannounce, Session.succeeds_pure⟩

/-- **The rest of `create` takes back no account.** -/
theorem connect_keeps (a : CreateArgs) (ca c : CloudAccount) (warnings : List String) :
    (connect S a ca warnings).Keeps fun db => c ∈ db.cloudAccounts.rows :=
  .bind (.read _) fun _ => .bind (.read _) fun _ => .bind (.read _) fun _ =>
    .bind (PoolController.create_keeps fun _ _ h => h) fun _ =>
      .bind (RuleController.createRule_keeps fun _ _ h => h) fun _ => .bind (.read _) fun _ => .pure _

/-! ## The account is stored -/

theorem insert_eq_ok {α : Type*} {key : α → Uuid} {t t' : Table key} {row : α} :
    insert t row = .ok t' ↔ key row ∉ t.rows.map key ∧ t'.rows = t.rows ++ [row] := by
  rw [insert, orFail_eq_ok, Table.insert?_eq_some]

/-- The first commit adds the account and touches neither pools nor rules. -/
theorem storeAccount_eq_ok {a : CreateArgs} {ca stored : CloudAccount} {db db' : Database}
    (h : storeAccount a ca db = .ok (stored, db')) :
    stored = { ca with costModelId := stored.costModelId } ∧
      ca.id ∉ db.cloudAccounts.rows.map CloudAccount.id ∧ stored ∈ db'.cloudAccounts.rows ∧
        db'.pools = db.pools ∧ db'.rules = db.rules := by
  unfold storeAccount at h
  split at h
  · simp only [bind_eq_ok, insert_eq_ok, pure_eq_ok, Prod.mk.injEq] at h
    obtain ⟨accounts, ⟨hnew, hrows⟩, rfl, rfl⟩ := h
    exact ⟨rfl, hnew, by simp [hrows], rfl, rfl⟩
  · simp only [bind_eq_ok, insert_eq_ok, pure_eq_ok, Prod.mk.injEq] at h
    obtain ⟨-, -, accounts, ⟨hnew, hrows⟩, models, -, rfl, rfl⟩ := h
    exact ⟨rfl, hnew, by simp [hrows], rfl, rfl⟩

/-- **Under a free id the first commit is refused only for the cost model.** -/
theorem storeAccount_isOk {a : CreateArgs} {ca : CloudAccount} {db : Database}
    (hid : ca.id ∉ db.cloudAccounts.rows.map CloudAccount.id)
    (hmodel : ca.id ∉ db.costModels.rows.map CostModel.id) :
    (∃ r, storeAccount a ca db = .ok r) ↔
      ∀ ctrl ∈ costModelCtrl ca.type, ctrl.2 a.costModel = .ok () := by
  have hadd : ∀ {α : Type} {key : α → Uuid} (t : Table key) (row : α), key row ∉ t.rows.map key →
      ∃ t', insert t row = .ok t' :=
    fun t row h => ⟨t.add row h, insert_eq_ok.mpr ⟨h, rfl⟩⟩
  unfold storeAccount
  cases hctrl : costModelCtrl ca.type with
  | none =>
    obtain ⟨accounts, haccounts⟩ := hadd db.cloudAccounts ca hid
    exact iff_of_true ⟨_, bind_eq_ok.mpr ⟨accounts, haccounts, rfl⟩⟩ (fun _ h => nomatch h)
  | some ctrl =>
    obtain ⟨type, check⟩ := ctrl
    simp only [Option.mem_some_iff, forall_eq']
    constructor
    · rintro ⟨r, hr⟩
      obtain ⟨_, hcheck, -⟩ := bind_eq_ok.mp hr
      exact hcheck
    · intro hcheck
      obtain ⟨accounts, haccounts⟩ :=
        hadd db.cloudAccounts { ca with costModelId := some ca.id } hid
      obtain ⟨models, hmodels⟩ := hadd db.costModels
        { id := ca.id, organizationId := ca.organizationId, type := type } hmodel
      exact ⟨_, bind_eq_ok.mpr ⟨(), hcheck, bind_eq_ok.mpr ⟨accounts, haccounts,
        bind_eq_ok.mpr ⟨models, hmodels, rfl⟩⟩⟩⟩

/-- The second commit adds discovery infos and nothing else. -/
theorem storeDiscoveryInfos_eq_ok (a : CreateArgs) (ca : CloudAccount) (db : Database) :
    ∃ infos, storeDiscoveryInfos a ca db = .ok ((), { db with discoveryInfos := infos }) := by
  unfold storeDiscoveryInfos
  split
  · exact ⟨db.discoveryInfos, rfl⟩
  · exact ⟨_, rfl⟩

/-- What `create` stores first: the account is new, pools and rules are as before. -/
theorem storeRows_eq_ok {a : CreateArgs} {ca stored : CloudAccount} {db db' : Database}
    (h : storeRows a ca db = (.ok stored, db')) :
    stored = { ca with costModelId := stored.costModelId } ∧
      ca.id ∉ db.cloudAccounts.rows.map CloudAccount.id ∧ stored ∈ db'.cloudAccounts.rows ∧
        db'.pools = db.pools ∧ db'.rules = db.rules := by
  simp only [storeRows, Session.bind_eq_ok, Session.commit_eq_ok, Session.pure_eq_ok] at h
  obtain ⟨ca', db₁, hfirst, _, db₂, hsecond, rfl, rfl⟩ := h
  obtain ⟨infos, hinfos⟩ := storeDiscoveryInfos_eq_ok a ca' db₁
  obtain ⟨-, rfl⟩ := Prod.mk.inj (Except.ok.inj (hinfos.symm.trans hsecond))
  obtain ⟨hsame, hnew, hmem, hpools, hrules⟩ := storeAccount_eq_ok hfirst
  exact ⟨hsame, hnew, hmem, hpools, hrules⟩

theorem storeRows_succeeds {a : CreateArgs} {ca : CloudAccount} {db : Database} :
    (storeRows a ca).Succeeds db ↔ ∃ r, storeAccount a ca db = .ok r := by
  constructor
  · rintro ⟨stored, db', h⟩
    obtain ⟨ca', db₁, hfirst, -⟩ := Session.bind_eq_ok.mp h
    exact ⟨_, Session.commit_eq_ok.mp hfirst⟩
  · rintro ⟨⟨stored, db₁⟩, hfirst⟩
    obtain ⟨infos, hinfos⟩ := storeDiscoveryInfos_eq_ok a stored db₁
    exact ⟨stored, _, Session.bind_eq_ok.mpr ⟨stored, db₁, Session.commit_eq_ok.mpr hfirst,
      Session.bind_eq_ok.mpr ⟨(), _, Session.commit_eq_ok.mpr hinfos, rfl⟩⟩⟩

/-- **Where the first commit is refused, nothing is stored.** -/
theorem storeRows_eq_error {a : CreateArgs} {ca : CloudAccount} {db db' : Database} {e : Failure}
    (h : storeRows a ca db = (.error e, db')) : db' = db := by
  obtain h | ⟨ca', db₁, -, h⟩ := Session.bind_eq_error.mp h
  · exact (Session.commit_eq_error.mp h).2.symm
  · obtain ⟨infos, hinfos⟩ := storeDiscoveryInfos_eq_ok a ca' db₁
    obtain h | ⟨_, _, -, h⟩ := Session.bind_eq_error.mp h
    · rw [Session.commit_eq_error, hinfos] at h
      exact nomatch h.1
    · exact nomatch (Prod.mk.inj h).1

/-! ## All or nothing -/

/-- What the input checks leave to be stored. -/
theorem checkCreate_eq_ok {a : CreateArgs} {db : Database} {ca : CloudAccount}
    {warnings : List String} (h : checkCreate S a db = .ok (ca, warnings)) :
    ca.type = a.type ∧ ca.deletedAt = 0 ∧
      ((1 ≤ ca.name.length ∧ ca.name.length ≤ 255) ∧ ca.name.isSpace = false) ∧
      ca.id ∉ db.cloudAccounts.rows.map CloudAccount.id ∧
        ca.id ∉ db.costModels.rows.map CostModel.id := by
  simp only [checkCreate, bind_eq_ok, pure_eq_ok, Prod.mk.injEq,
    PoolController.notWhiteSpaceString_eq_ok] at h
  obtain ⟨_, -, ⟨accountId, ws⟩, -, _, -, _, hname, _, -, more, -, rfl, -⟩ := h
  have hnew := S.genId.next_not_mem
    (db.cloudAccounts.rows.map CloudAccount.id ++ db.costModels.rows.map CostModel.id)
  rw [List.mem_append, not_or] at hnew
  exact ⟨rfl, rfl, hname, hnew⟩

/-- What a connection needs does not depend on the account's cost model. -/
theorem connects_costModelId {pools : Table Pool.id} {rules : Table Rule.id} {a : CreateArgs}
    {ca : CloudAccount} {warnings : List String} {costModelId : Option Uuid} :
    Connects S pools rules a { ca with costModelId := costModelId } warnings ↔
      Connects S pools rules a ca warnings := by
  constructor
  · rintro ⟨parent, userId, owner, hunder, hroom, howned, hnamed, hrule, hcreated, hmanaged, hranked,
      hanswered⟩
    exact ⟨parent, userId, owner, hunder, hroom, howned, hnamed, hrule, hcreated, hmanaged, hranked,
      hanswered⟩
  · rintro ⟨parent, userId, owner, hunder, hroom, howned, hnamed, hrule, hcreated, hmanaged, hranked,
      hanswered⟩
    exact ⟨parent, userId, owner, hunder, hroom, howned, hnamed, hrule, hcreated, hmanaged, hranked,
      hanswered⟩

/-- A connection that has what it needs finds its pool a name. -/
theorem Connects.name {pools : Table Pool.id} {rules : Table Rule.id} {a : CreateArgs}
    {ca : CloudAccount} {warnings : List String} (h : Connects S pools rules a ca warnings)
    (hca : (1 ≤ ca.name.length ∧ ca.name.length ≤ 255) ∧ ca.name.isSpace = false) :
    ∃ name, generatePoolName S pools ca = .ok name ∧ ∀ parent ∈ parentPool S pools ca,
      ¬ PoolController.Taken S pools ca.organizationId parent.id name := by
  obtain ⟨parent, _, _, h⟩ := h
  obtain ⟨name, hgen, -, -, -, htaken⟩ := (nameFree_iff hca).mp h.named
  have hparent := parentPool_eq_some.mpr ⟨h.under.1, h.under.2.1⟩
  refine ⟨name, hgen, fun p hp => ?_⟩
  obtain rfl : parent = p := Option.some.inj (hparent.symm.trans hp)
  exact htaken

/-- **Connecting an account is all or nothing, and its pool's name is sound, exactly when its cost
model is refused or the connection has all it needs once the account is stored.** -/
theorem allOrNothing_iff {a : CreateArgs} {db : Database} {ca : CloudAccount}
    {warnings : List String} (hchecks : checkCreate S a db = .ok (ca, warnings)) :
    AllOrNothing S a db ∧ NameSound S a db ↔
      (CostModelAccepted a → Connects S db.pools db.rules a ca warnings) := by
  obtain ⟨htype, hlive, hname, hid, hmodel⟩ := checkCreate_eq_ok hchecks
  have haccepted : (storeRows a ca).Succeeds db ↔ CostModelAccepted a := by
    rw [storeRows_succeeds, storeAccount_isOk hid hmodel, htype, CostModelAccepted]
  have hcreate : create S a db = (storeRows a ca >>= fun ca => connect S a ca warnings) db :=
    Session.read_bind_of_ok hchecks
  rw [← haccepted, AllOrNothing, hcreate]
  by_cases hstored : (storeRows a ca).Succeeds db
  · obtain ⟨stored, db₁, hstore⟩ := hstored
    obtain ⟨hsame, hnew, hmem, hpools, hrules⟩ := storeRows_eq_ok hstore
    have hstoredName : (1 ≤ stored.name.length ∧ stored.name.length ≤ 255) ∧
        stored.name.isSpace = false := by rw [hsame]; exact hname
    have hconnects : Connects S db₁.pools db₁.rules a stored warnings ↔
        Connects S db.pools db.rules a ca warnings := by
      rw [hpools, hrules, hsame, connects_costModelId]
    have hconnect := (connect_succeeds db₁ a warnings hstoredName).trans hconnects
    constructor
    · rintro ⟨hall, -⟩ -
      -- the account stays, so what comes after it must not raise
      by_contra hneeds
      obtain ⟨e, db', herror⟩ := Session.not_succeeds_iff.mp (mt hconnect.mp hneeds)
      have hkeeps : (connect S a stored warnings).Keeps fun db => stored ∈ db.cloudAccounts.rows :=
        connect_keeps a stored stored warnings
      have hkept := hkeeps.apply hmem
      rw [herror] at hkept
      have hnothing := hall e db' (Session.bind_eq_error.mpr (Or.inr ⟨_, _, hstore, herror⟩))
      have hold := hnothing.cloudAccounts stored hkept (by rw [hsame]; exact hlive)
      exact hnew (List.mem_map.mpr ⟨stored, hold, by rw [hsame]⟩)
    · intro hneeds
      have hneeds := hneeds ⟨_, _, hstore⟩
      obtain ⟨r, t, hok⟩ := hconnect.mpr hneeds
      constructor
      · intro e db' h
        rw [Session.bind_eq_ok.mpr ⟨_, _, hstore, hok⟩] at h
        exact nomatch h
      · intro ca' warnings' stored' db' hchecks' hstore'
        obtain ⟨rfl, rfl⟩ := Prod.mk.inj (Except.ok.inj (hchecks.symm.trans hchecks'))
        obtain ⟨hok', rfl⟩ := Prod.mk.inj (hstore.symm.trans hstore')
        obtain rfl := Except.ok.inj hok'
        exact (hconnects.mpr hneeds).name hstoredName
  · obtain ⟨e, db₁, hstore⟩ := Session.not_succeeds_iff.mp hstored
    obtain rfl := storeRows_eq_error hstore
    refine iff_of_true ⟨fun e' db' h => ?_, fun ca' warnings' stored' db' hchecks' hstore' => ?_⟩
      (fun h => absurd h hstored)
    · obtain h | ⟨_, _, hok, -⟩ := Session.bind_eq_error.mp h
      · exact storeRows_eq_error h ▸ NothingCreated.refl _
      · exact absurd ⟨_, _, hok⟩ hstored
    · obtain ⟨rfl, rfl⟩ := Prod.mk.inj (Except.ok.inj (hchecks.symm.trans hchecks'))
      exact absurd ⟨_, _, hstore'⟩ hstored

/-! ### An account connected a second time

The pool of an account outlives the account.  Where the account's name has no letter and no digit of
ASCII, the pool of the second connection cannot be named.
-/

/-- Organization `1` with its pool `2`, and its employee `4`; every service answers. -/
def answering : Services where
  genId := .successor
  now := 100
  collation := ⟨fun s t => s = t, fun c d => c = d⟩
  organization o := o = 1
  organizationPool o := if o = 1 then some 2 else none
  employeeByUser u o := if u = some 5 ∧ o = 1 then some ⟨4, "employee", 5⟩ else none
  employee e o := if e = 4 ∧ o = 1 then some ⟨4, "employee", 5⟩ else none
  liveEmployee e := e = 4
  defaultOwner e := if e = 4 then some ⟨4, "employee", 5⟩ else none
  userId := .ok (some 5)
  authorizeUserList _ _ := .ok true
  publish _ := .ok ()

/-- The pool of the organization, and the one an account named `云` left. -/
def reconnecting : Database where
  cloudAccounts := Table.empty
  costModels := Table.empty
  discoveryInfos := []
  pools := ⟨[{ id := 2, organizationId := 1, name := ['o'] },
    { id := 3, organizationId := 1, parentId := some 2, name := ['云'], createdAt := 50 }], by decide⟩
  rules := Table.empty

/-- Connect the account again. -/
def reconnect : CreateArgs where
  organizationId := 1
  name := ['云']
  type := .AWS_CNR
  handleConfig := .ok (some ['6'], [])
  configureReport := .ok []

/-- **The second connection raises, and leaves an account behind.** -/
theorem reconnection_leaves_account :
    ¬ ∀ S a db ca warnings, checkCreate S a db = .ok (ca, warnings) →
      AllOrNothing S a db ∧ NameSound S a db := by
  intro h
  let stored : CloudAccount :=
    { id := 1, name := ['云'], type := .AWS_CNR, organizationId := 1, accountId := some ['6'] }
  have hchecks : checkCreate answering reconnect reconnecting = .ok (stored, []) := by rfl
  have hraises : (create answering reconnect reconnecting).1 = .error (.python "IndexError") := by
    rfl
  have hnothing := (h _ _ _ _ _ hchecks).1 _ _ (Prod.ext hraises rfl)
  have hleft : stored ∈ (create answering reconnect reconnecting).2.cloudAccounts.rows := by decide
  exact absurd (hnothing.cloudAccounts stored hleft rfl) List.not_mem_nil

/-- The condition at the second connection. -/
theorem allOrNothing_iff_reconnect :
    AllOrNothing answering reconnect reconnecting ∧ NameSound answering reconnect reconnecting ↔
      (CostModelAccepted reconnect →
        Connects answering reconnecting.pools reconnecting.rules reconnect
          { id := 1, name := ['云'], type := .AWS_CNR, organizationId := 1, accountId := some ['6'] }
          []) :=
  allOrNothing_iff rfl

end CloudAccountController
