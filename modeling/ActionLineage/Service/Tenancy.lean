import ActionLineage.Py.Path
import ActionLineage.Py.Effects
import ActionLineage.Domain.Redaction

/-!
# Tenant storage — `service/tenancy.py`

Every path of a tenant's scope belongs to one tenant: below the resolved base directory stand the
kind of storage and then the tenant id, which is a single part (`Owned`). What lies in or around a
path of one scope is therefore never a path of another (`tenant_isolation`).
-/

namespace ActionLineage

open Py

def TENANT_STORAGE_LAYOUT_VERSION : Str := lit "actionlineage.dev/tenant-storage-layout-v1"

def TENANT_ID_MAX_LENGTH : Nat := 128

def TENANT_ID_ALLOWED_CHARS : Str :=
  lit "ABCDEFGHIJKLMNOPQRSTUVWXYZabcdefghijklmnopqrstuvwxyz0123456789_-"

/-- `validate_tenant_id`. -/
def validateTenantId (tenantId : Str) : Except PyError Str :=
  if tenantId.isEmpty then .error (.tenantIsolationError "tenant_id is required")
  else if tenantId.length > TENANT_ID_MAX_LENGTH then
    .error (.tenantIsolationError "tenant_id is too long")
  else if tenantId = lit "." ∨ tenantId = lit ".." then
    .error (.tenantIsolationError "tenant_id must be a single path segment")
  else if tenantId.any fun character => !TENANT_ID_ALLOWED_CHARS.contains character then
    .error (.tenantIsolationError "tenant_id contains unsupported characters")
  else .ok tenantId

/-- `_validated_relative_path_parts`. -/
def validatedRelativePathParts (requestedRelativePath : Str) (fieldName : String) :
    Except PyError (List Str) :=
  let refusal : PyError :=
    .valueError (fieldName ++ " must be a relative path under its configured root")
  -- `strip()` leaves nothing
  if requestedRelativePath.all isRegexSpace then .error refusal
  else
    let requested := PurePath.parse requestedRelativePath
    if requested.isAbsolute
        || requested.parts.any fun part => part = [] ∨ part = lit "." ∨ part = lit ".." then
      .error refusal
    else .ok requested.parts

section Storage

/- The working directory. -/
variable (cwd : PurePath)

/-- `confined_service_path`. -/
def confinedServicePath (root : PurePath) (requestedRelativePath : Str) (fieldName : String) :
    Except PyError PurePath := do
  let requestedParts ← validatedRelativePathParts requestedRelativePath fieldName
  let rootPath ← root.resolve cwd
  let candidate ← (rootPath.joinpath requestedParts).resolve cwd
  if candidate = rootPath ∨ candidate.isRelativeTo rootPath = false then
    .error (.valueError (fieldName ++ " must stay under its configured root"))
  else .ok candidate

/-- `_tenant_child`. -/
def tenantChild (root : PurePath) (tenantId : Str) (parts : List Str) :
    Except PyError PurePath := do
  let rootPath ← root.resolve cwd
  let tenantRoot ← (rootPath.join tenantId).resolve cwd
  let candidate ← (if parts.isEmpty then .ok tenantRoot
    else (tenantRoot.div (PurePath.ofSegments parts)).resolve cwd)
  if candidate.isRelativeTo tenantRoot then .ok candidate
  else .error (.tenantIsolationError "tenant path escaped tenant storage root")

structure TenantStorageScope where
  tenantId : Str
  journalPath : PurePath
  databasePath : PurePath
  exportRoot : PurePath
  serviceLogPath : PurePath
  cacheRoot : PurePath
  anchorRoot : PurePath
  anchorPath : PurePath
  anchorLogPath : PurePath
  layoutVersion : Str := TENANT_STORAGE_LAYOUT_VERSION

/-- `TenantStorageScope.export_dir`. -/
def TenantStorageScope.exportDir (scope : TenantStorageScope) (requestedOutputDir : Str) :
    Except PyError PurePath :=
  confinedServicePath cwd scope.exportRoot requestedOutputDir "output_dir"

structure TenantStorageLayout where
  journalRoot : PurePath
  databaseRoot : PurePath
  exportRoot : PurePath
  logRoot : PurePath
  cacheRoot : PurePath
  anchorRoot : PurePath

namespace TenantStorageLayout

/-- `TenantStorageLayout.under_base`. -/
def underBase (base : PurePath) : TenantStorageLayout where
  journalRoot := base.join (lit "journals")
  databaseRoot := base.join (lit "projections")
  exportRoot := base.join (lit "exports")
  logRoot := base.join (lit "logs")
  cacheRoot := base.join (lit "caches")
  anchorRoot := base.join (lit "anchors")

/-- `TenantStorageLayout.scope_for`. -/
def scopeFor (layout : TenantStorageLayout) (tenantId : Str) :
    Except PyError TenantStorageScope := do
  let tenantSegment ← validateTenantId tenantId
  let anchorRoot ← tenantChild cwd layout.anchorRoot tenantSegment []
  .ok
    { tenantId := tenantSegment
      journalPath :=
        ← tenantChild cwd layout.journalRoot tenantSegment [lit "actionlineage.journal"]
      databasePath := ← tenantChild cwd layout.databaseRoot tenantSegment [lit "projection.sqlite"]
      exportRoot := ← tenantChild cwd layout.exportRoot tenantSegment []
      serviceLogPath := ← tenantChild cwd layout.logRoot tenantSegment [lit "service.ndjson"]
      cacheRoot := ← tenantChild cwd layout.cacheRoot tenantSegment []
      anchorRoot
      anchorPath := anchorRoot.join (lit "journal-anchor.json")
      anchorLogPath := anchorRoot.join (lit "anchor-log.jsonl") }

end TenantStorageLayout

end Storage

/-! ## Whose a path is -/

/-- The path is the tenant's: below the base stand a kind of storage and the tenant id. -/
def Owned (base : PurePath) (tenantId : Str) (p : PurePath) : Prop :=
  p.isAbsolute = true ∧ ∃ kind, base.parts ++ [kind, tenantId] <+: p.parts

variable {cwd base b p q root : PurePath} {tenantId t : Str}

theorem Owned.below (h : Owned b t q) (hp : p.isRelativeTo q = true) : Owned b t p := by
  obtain ⟨habs, kind, hprefix⟩ := h
  obtain ⟨heq, hle⟩ := PurePath.isRelativeTo_iff.mp hp
  exact ⟨heq.trans habs, kind, hprefix.trans hle⟩

/-- A path has one owner. -/
theorem Owned.unique {t' : Str} (h : Owned b t p) (h' : Owned b t' p) : t = t' := by
  obtain ⟨-, kind, hprefix⟩ := h
  obtain ⟨-, kind', hprefix'⟩ := h'
  have hle : b.parts ++ [kind, t] <+: b.parts ++ [kind', t'] :=
    List.prefix_of_prefix_length_le hprefix hprefix' (by simp)
  have heq : b.parts ++ [kind, t] = b.parts ++ [kind', t'] := hle.eq_of_length (by simp)
  have hlast : kind = kind' ∧ t = t' := by simpa using List.append_cancel_left heq
  exact hlast.2

theorem Owned.not_isRelativeTo {t' : Str} (h : Owned b t p) (h' : Owned b t' q) (hne : t ≠ t') :
    p.isRelativeTo q = false := by
  by_contra hrel
  exact hne (h.unique (h'.below (by simpa using hrel)))

/-! ## Tenant ids and storage kinds -/

/-- A part that is a single path segment, and names a file. -/
structure IsSegment (s : Str) : Prop where
  isPart : IsPart s
  ne_pardir : s ≠ PurePath.PARDIR
  lstat : PurePath.lstat s = .ok ()

instance (s : Str) : Decidable (IsSegment s) :=
  decidable_of_iff (IsPart s ∧ s ≠ PurePath.PARDIR ∧ PurePath.lstat s = .ok ())
    ⟨fun h => ⟨h.1, h.2.1, h.2.2⟩, fun h => ⟨h.isPart, h.ne_pardir, h.lstat⟩⟩

theorem allowedChars_plain : TENANT_ID_ALLOWED_CHARS.all (fun c =>
    decide (c ≠ SEP ∧ PurePath.isFsEncodable c = true ∧ c ≠ cp '\x00')) = true := by
  decide +kernel

theorem plain_of_allowed {c : CodePoint} (h : c ∈ TENANT_ID_ALLOWED_CHARS) :
    c ≠ SEP ∧ PurePath.isFsEncodable c = true ∧ c ≠ cp '\x00' :=
  of_decide_eq_true (List.all_eq_true.mp allowedChars_plain c h)

theorem validateTenantId_eq_ok (h : validateTenantId tenantId = .ok t) :
    t = tenantId ∧ IsSegment tenantId := by
  unfold validateTenantId at h
  split at h
  · cases h
  rename_i hnil
  split at h
  · cases h
  split at h
  · cases h
  rename_i hdots
  split at h
  · cases h
  rename_i hany
  obtain rfl := Except.ok.inj h
  rw [not_or] at hdots
  have hallowed : ∀ c ∈ tenantId, c ∈ TENANT_ID_ALLOWED_CHARS := by
    intro c hc
    by_contra hout
    exact hany (List.any_eq_true.mpr ⟨c, hc, by simpa using hout⟩)
  refine ⟨rfl, ⟨?_, hdots.1, ?_⟩, hdots.2, ?_⟩
  · rintro rfl
    exact hnil rfl
  · intro hsep
    exact (plain_of_allowed (hallowed _ hsep)).1 rfl
  · have hencodable : tenantId.all PurePath.isFsEncodable = true :=
      List.all_eq_true.mpr fun c hc => (plain_of_allowed (hallowed c hc)).2.1
    have hnull : cp '\x00' ∉ tenantId :=
      fun hmem => (plain_of_allowed (hallowed _ hmem)).2.2 rfl
    rw [PurePath.lstat, hencodable, List.contains_eq_mem, decide_eq_false hnull]
    rfl

/-- A segment on a path resolves to the segment on the resolved path. -/
theorem resolve_join {segment : Str} (hs : IsSegment segment) :
    (p.join segment).resolve cwd = .ok q ↔
      ∃ b, p.resolve cwd = .ok b ∧ q.isAbsolute = true ∧ q.parts = b.parts ++ [segment] := by
  rw [PurePath.join, PurePath.parse_part hs.isPart, PurePath.resolve_div rfl]
  · have hstat : [segment].forM PurePath.lstat = .ok () := by
      change (PurePath.lstat segment >>= fun _ => .ok ()) = .ok ()
      rw [hs.lstat]
      rfl
    simp only [hstat, true_and]
  · rw [List.mem_singleton]
    exact fun heq => hs.ne_pardir heq.symm

/-! ## The scope of one tenant -/

theorem tenantChild_owned {kind : Str} {parts : List Str} (hkind : IsSegment kind)
    (ht : IsSegment t) (h : tenantChild cwd (base.join kind) t parts = .ok p) :
    ∃ b, base.resolve cwd = .ok b ∧ Owned b t p ∧ p.Resolved := by
  obtain ⟨rootPath, hroot, htail⟩ := bind_eq_ok.mp h
  obtain ⟨tenantRoot, htenant, hchild⟩ := bind_eq_ok.mp htail
  obtain ⟨candidate, hcandidate, hcheck⟩ := bind_eq_ok.mp hchild
  obtain ⟨b, hb, -, hrootParts⟩ := (resolve_join hkind).mp hroot
  obtain ⟨b', hb', habs, htenantParts⟩ := (resolve_join ht).mp htenant
  have hsame : b' = rootPath := PurePath.resolve_of_resolved (PurePath.resolved_resolve hroot) hb'
  have howned : Owned b t tenantRoot := by
    refine ⟨habs, kind, ?_⟩
    rw [htenantParts, hsame, hrootParts, List.append_assoc]
    exact List.prefix_refl _
  have hresolved : candidate.Resolved := by
    split at hcandidate
    · obtain rfl := Except.ok.inj hcandidate
      exact PurePath.resolved_resolve htenant
    · exact PurePath.resolved_resolve hcandidate
  split at hcheck
  · rename_i hbelow
    obtain rfl := Except.ok.inj hcheck
    exact ⟨b, hb, howned.below hbelow, hresolved⟩
  · cases hcheck

/-- A requested directory stands below the root that confines it. -/
theorem confinedServicePath_below {name : Str} {fieldName : String} (hroot : root.Resolved)
    (h : confinedServicePath cwd root name fieldName = .ok p) : p.isRelativeTo root = true := by
  obtain ⟨requestedParts, -, htail⟩ := bind_eq_ok.mp h
  obtain ⟨rootPath, hrootPath, hcandidate⟩ := bind_eq_ok.mp htail
  obtain ⟨candidate, -, hcheck⟩ := bind_eq_ok.mp hcandidate
  rw [PurePath.resolve_of_resolved hroot hrootPath] at hcheck
  split at hcheck
  · cases hcheck
  · rename_i hstays
    obtain rfl := Except.ok.inj hcheck
    rw [not_or, Bool.not_eq_false] at hstays
    exact hstays.2

/-- The paths that a scope states. -/
def TenantStorageScope.paths (scope : TenantStorageScope) : List PurePath :=
  [scope.journalPath, scope.databasePath, scope.exportRoot, scope.serviceLogPath, scope.cacheRoot,
   scope.anchorRoot, scope.anchorPath, scope.anchorLogPath]

/-- A path of the scope: one that it states, or the directory of an export that it accepts. -/
def TenantStorageScope.Reaches (scope : TenantStorageScope) (cwd p : PurePath) : Prop :=
  p ∈ scope.paths ∨ ∃ requestedOutputDir, scope.exportDir cwd requestedOutputDir = .ok p

/-- Every path that a scope states is its tenant's. -/
theorem scopeFor_owned {scope : TenantStorageScope}
    (h : (TenantStorageLayout.underBase base).scopeFor cwd t = .ok scope) :
    ∃ b, base.resolve cwd = .ok b ∧ scope.exportRoot.Resolved ∧
      ∀ p ∈ scope.paths, Owned b t p := by
  obtain ⟨segment, hvalid, h₁⟩ := bind_eq_ok.mp h
  obtain ⟨anchorRoot, hanchor, h₂⟩ := bind_eq_ok.mp h₁
  obtain ⟨journalPath, hjournal, h₃⟩ := bind_eq_ok.mp h₂
  obtain ⟨databasePath, hdatabase, h₄⟩ := bind_eq_ok.mp h₃
  obtain ⟨exportRoot, hexport, h₅⟩ := bind_eq_ok.mp h₄
  obtain ⟨serviceLogPath, hlog, h₆⟩ := bind_eq_ok.mp h₅
  obtain ⟨cacheRoot, hcache, h₇⟩ := bind_eq_ok.mp h₆
  obtain ⟨hsegment, ht⟩ := validateTenantId_eq_ok hvalid
  subst hsegment
  obtain ⟨b, hb, hanchor, -⟩ := tenantChild_owned (by decide +kernel) ht hanchor
  have howned {kind : Str} {parts : List Str} {p : PurePath} (hkind : IsSegment kind)
      (hp : tenantChild cwd (base.join kind) segment parts = .ok p) :
      Owned b segment p ∧ p.Resolved := by
    obtain ⟨b', hb', hp⟩ := tenantChild_owned hkind ht hp
    rwa [Except.ok.inj (hb.symm.trans hb')] at *
  have hexport := howned (by decide +kernel) hexport
  have hbelow {name : Str} (hname : IsPart name) : Owned b segment (anchorRoot.join name) := by
    rw [PurePath.join, PurePath.parse_part hname]
    refine hanchor.below (PurePath.isRelativeTo_iff.mpr ⟨PurePath.div_isAbsolute rfl, ?_⟩)
    rw [PurePath.div_parts rfl]
    exact List.prefix_append _ _
  obtain rfl := Except.ok.inj h₇
  refine ⟨b, hb, hexport.2, ?_⟩
  simp only [TenantStorageScope.paths, List.forall_mem_cons]
  exact ⟨(howned (by decide +kernel) hjournal).1, (howned (by decide +kernel) hdatabase).1,
    hexport.1, (howned (by decide +kernel) hlog).1, (howned (by decide +kernel) hcache).1, hanchor,
    hbelow (by decide +kernel), hbelow (by decide +kernel), List.forall_mem_nil _⟩

theorem Reaches.owned {scope : TenantStorageScope}
    (h : (TenantStorageLayout.underBase base).scopeFor cwd t = .ok scope)
    (hb : base.resolve cwd = .ok b) (hp : scope.Reaches cwd p) : Owned b t p := by
  obtain ⟨b', hb', hresolved, howned⟩ := scopeFor_owned h
  obtain rfl := Except.ok.inj (hb.symm.trans hb')
  rcases hp with hp | ⟨name, hname⟩
  · exact howned p hp
  · have hroot : Owned b t scope.exportRoot := howned _ (by simp [TenantStorageScope.paths])
    exact hroot.below (confinedServicePath_below hresolved hname)

/-- **Tenant isolation.** No path of one tenant's scope equals or lies inside a path of another's. -/
theorem tenant_isolation (cwd base : PurePath) (t₁ t₂ : Str) (hne : t₁ ≠ t₂)
    (scope₁ scope₂ : TenantStorageScope)
    (h₁ : (TenantStorageLayout.underBase base).scopeFor cwd t₁ = .ok scope₁)
    (h₂ : (TenantStorageLayout.underBase base).scopeFor cwd t₂ = .ok scope₂)
    (p q : PurePath) (hp : scope₁.Reaches cwd p) (hq : scope₂.Reaches cwd q) :
    p ≠ q ∧ p.isRelativeTo q = false ∧ q.isRelativeTo p = false := by
  obtain ⟨b, hb, -⟩ := scopeFor_owned h₁
  have hp := Reaches.owned h₁ hb hp
  have hq := Reaches.owned h₂ hb hq
  refine ⟨?_, hp.not_isRelativeTo hq hne, hq.not_isRelativeTo hp hne.symm⟩
  rintro rfl
  exact hne (hp.unique hq)

/-- Two ids of which one begins with the other, under a relative base, and an export each. -/
theorem tenant_isolation_sample :
    let cwd := PurePath.parse (lit "/srv")
    let base := PurePath.parse (lit "../state")
    ∃ scope₁ scope₂ p q,
      (TenantStorageLayout.underBase base).scopeFor cwd (lit "team") = .ok scope₁ ∧
      (TenantStorageLayout.underBase base).scopeFor cwd (lit "team-2") = .ok scope₂ ∧
      scope₁.exportDir cwd (lit "cases/1") = .ok p ∧ scope₂.exportDir cwd (lit "./cases//1") = .ok q ∧
      p ≠ q ∧ p.isRelativeTo q = false ∧ q.isRelativeTo p = false := by
  intro cwd base
  obtain ⟨⟨scope₁, p⟩, hp, -⟩ := map_eq_ok.mp (show (do
    let scope ← (TenantStorageLayout.underBase base).scopeFor cwd (lit "team")
    .ok (scope, ← scope.exportDir cwd (lit "cases/1"))).map (fun _ => ()) = .ok () by decide +kernel)
  obtain ⟨⟨scope₂, q⟩, hq, -⟩ := map_eq_ok.mp (show (do
    let scope ← (TenantStorageLayout.underBase base).scopeFor cwd (lit "team-2")
    .ok (scope, ← scope.exportDir cwd (lit "./cases//1"))).map (fun _ => ()) = .ok ()
      by decide +kernel)
  obtain ⟨scope, h₁, hp⟩ := bind_eq_ok.mp hp
  obtain ⟨_, hexport₁, hp⟩ := bind_eq_ok.mp hp
  obtain ⟨rfl, rfl⟩ := Prod.mk.inj (Except.ok.inj hp)
  obtain ⟨scope', h₂, hq⟩ := bind_eq_ok.mp hq
  obtain ⟨_, hexport₂, hq⟩ := bind_eq_ok.mp hq
  obtain ⟨rfl, rfl⟩ := Prod.mk.inj (Except.ok.inj hq)
  exact ⟨_, _, _, _, h₁, h₂, hexport₁, hexport₂,
    tenant_isolation cwd base (lit "team") (lit "team-2") (by decide +kernel) _ _ h₁ h₂ _ _
      (.inr ⟨_, hexport₁⟩) (.inr ⟨_, hexport₂⟩)⟩

end ActionLineage
