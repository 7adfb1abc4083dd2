/-
Posting what was shown.

* `keeps_iff`: posting some of the settings exactly as they were shown leaves the users, the caps and
  the node fields as they were if and only if the users are posted or there are none, the timeout is
  not posted or is a whole number of minutes, and, in local development, the config that is shown is
  the stored one on the forced machine.

A list of users that is missing is taken for an empty one, and seconds are shown as whole minutes.
-/
import Burla.Settings.Config
import Mathlib.Tactic.Linarith

namespace Burla.Settings

open Burla.Scaling (CloudProvider Text)

/-! ### What is to be kept -/

/-- The settings that can be posted. -/
inductive Field
  | containerImage
  | machineType
  | gcpRegion
  | machineQuantity
  | diskSize
  | inactivityTimeout
  | maxVcpus
  | maxGpus
  | users
  deriving DecidableEq, Repr

/-- The values of some of the settings, as they were shown. -/
def SettingsDto.pick (dto : SettingsDto) (S : Field → Bool) : Body where
  containerImage := if S .containerImage then some dto.containerImage else none
  machineType := if S .machineType then some dto.machineType else none
  gcpRegion := if S .gcpRegion then some dto.gcpRegion else none
  machineQuantity := if S .machineQuantity then some dto.machineQuantity else none
  diskSize := if S .diskSize then some dto.diskSize else none
  inactivityTimeout := if S .inactivityTimeout then some (.int dto.inactivityTimeout) else none
  maxVcpus := if S .maxVcpus then some dto.maxVcpus else none
  maxGpus := if S .maxGpus then some dto.maxGpus else none
  users := if S .users then some dto.users else none

/-- The fields of a node spec; the seconds are compared as numbers. -/
structure NodeFields where
  image : Option Json
  machineType : Option Json
  gcpRegion : Option Json
  quantity : Option Json
  diskSizeGb : Option Json
  inactivitySeconds : Option ℚ
  deriving DecidableEq, Repr

def NodeSpec.image (node : NodeSpec) : Option Json :=
  (node.containers.bind List.head?).bind Container.image

def NodeSpec.seconds (node : NodeSpec) : Option ℚ :=
  node.inactivityShutdownTimeSec.bind Json.number

def NodeSpec.fields (node : NodeSpec) : NodeFields :=
  ⟨node.image, node.machineType, node.gcpRegion, node.quantity, node.diskSizeGb, node.seconds⟩

def Config.nodeSpecs (config : Config) : List NodeSpec := config.nodes.getD []

def Config.nodeFields (config : Config) : List NodeFields := config.nodeSpecs.map NodeSpec.fields

/-- Two configs have the same caps and the same node fields. -/
def Config.Same (provider : CloudProvider) (c c' : Config) : Prop :=
  c.nodeFields = c'.nodeFields ∧ resourceCaps provider c = resourceCaps provider c'

/-- A node spec has all fields that are shown. -/
structure NodeSpec.Complete (node : NodeSpec) : Prop where
  image : node.image.isSome
  machineType : node.machineType.isSome
  gcpRegion : node.gcpRegion.isSome
  quantity : node.quantity.isSome
  diskSizeGb : node.diskSizeGb.isSome
  seconds : node.seconds.isSome

/-- The first node spec of a config has all fields that are shown. -/
def Config.Complete (config : Config) : Prop :=
  ∃ node rest, config.nodes = some (node :: rest) ∧ node.Complete

/-- A request that succeeds leaves the users, the caps and the node fields as they were. -/
def Keeps (backend : Backend) (provider : CloudProvider) (head : Head) (body : Body) : Prop :=
  (updateSettings backend provider head body).2 = none ∧
    (updateSettings backend provider head body).1.users = head.users ∧
    (updateSettings backend provider head body).1.stored.Same provider head.stored ∧
    ∀ localDev, head.localDev = some localDev → ∀ localDev',
      (updateSettings backend provider head body).1.localDev = some localDev' →
        localDev'.Same provider localDev

/-- A backend that removes a user removes that one, and adds none. -/
def Backend.Removes (backend : Backend) : Prop :=
  ∀ users email users', backend.removeUser users email = some users' →
    email ∉ users' ∧ users' ⊆ users

/-- The timeout of the first node is a whole number of minutes. -/
def Config.WholeMinutes (config : Config) : Prop :=
  ∀ node rest, config.nodes = some (node :: rest) → ∃ k : ℤ, node.seconds = some (60 * k : ℚ)

/-- The config of local development is the stored one on the forced machine; and when its machine
type and its quantity are posted, they are the stored ones. -/
def Follows (provider : CloudProvider) (stored localDev : Config) (S : Field → Bool) : Prop :=
  (localDev.nodeFields = (forcedNodes provider stored.nodeSpecs).map NodeSpec.fields ∧
    resourceCaps provider localDev = resourceCaps provider stored) ∧
  ∀ node rest, stored.nodes = some (node :: rest) →
    (S .machineType → node.machineType = (node.forced provider).machineType) ∧
    (S .machineQuantity → node.quantity = (node.forced provider).quantity)

/-- When settings are kept. -/
structure Kept (provider : CloudProvider) (head : Head) (S : Field → Bool) : Prop where
  users : S .users ∨ head.users = []
  minutes : S .inactivityTimeout → head.stored.WholeMinutes
  localDev : ∀ localDev, head.localDev = some localDev → Follows provider head.stored localDev S

/-! ### Users -/

section Users

variable {backend : Backend} {request : List Text → Text → Option (List Text)}
  {emails users users' : List Text}

lemma requestAll_subset (h : ∀ us email us', request us email = some us' → us' ⊆ us)
    (hok : requestAll request emails users = (users', none)) : users' ⊆ users := by
  induction emails generalizing users with
  | nil =>
    obtain ⟨rfl, -⟩ := Prod.mk.inj hok
    exact List.Subset.refl users
  | cons email emails ih =>
    rw [requestAll] at hok
    cases hrequest : request users email with
    | none =>
      rw [hrequest] at hok
      cases (Prod.mk.inj hok).2
    | some us =>
      rw [hrequest] at hok
      exact List.Subset.trans (ih hok) (h users email us hrequest)

/-- Users that are all posted are all kept. -/
lemma syncUsers_self : syncUsers backend users users = (users, none) := by
  have hnone : (users.filter fun email => email ∉ users) = [] := by
    rw [List.filter_eq_nil_iff]
    intro email hemail
    rw [decide_eq_true_eq]
    exact not_not_intro hemail
  rw [syncUsers, hnone]
  rfl

/-- **Without a list of users all of them are removed.** -/
lemma syncUsers_nil_iff (h : backend.Removes) :
    syncUsers backend users [] = (users, none) ↔ users = [] := by
  constructor
  · intro hsync
    have hall : (users.filter fun email => email ∉ ([] : List Text)) = users := by
      rw [List.filter_eq_self]
      intro email _
      exact decide_eq_true List.not_mem_nil
    replace hsync : requestAll backend.removeUser (users.filter fun email => email ∉ ([] : List Text))
        users = (users, none) := hsync
    rw [hall] at hsync
    cases users with
    | nil => rfl
    | cons email emails =>
      rw [requestAll] at hsync
      cases hrequest : backend.removeUser (email :: emails) email with
      | none =>
        rw [hrequest] at hsync
        cases (Prod.mk.inj hsync).2
      | some us =>
        rw [hrequest] at hsync
        have hsub := requestAll_subset (fun us email us' hr => (h us email us' hr).2) hsync
        exact absurd (hsub List.mem_cons_self) (h _ _ _ hrequest).1
  · rintro rfl
    rfl

end Users

/-! ### What was shown -/

section Shown

variable {provider : CloudProvider} {head : Head} {dto : SettingsDto} {config : Config}
  {node : NodeSpec} {rest : List NodeSpec} {container : Container} {S : Field → Bool}

lemma exists_container (h : node.image.isSome) :
    ∃ container, node.container = .ok container ∧ node.image = container.image := by
  rw [NodeSpec.image, NodeSpec.container] at *
  cases hc : node.containers with
  | none =>
    rw [hc] at h
    cases h
  | some containers =>
    cases containers with
    | nil =>
      rw [hc] at h
      cases h
    | cons container more => exact ⟨container, rfl, rfl⟩

/-- A complete node spec is shown as it is, with its minutes. -/
structure Shows (dto : SettingsDto) (node : NodeSpec) : Prop where
  image : node.image = some dto.containerImage
  machineType : node.machineType = some dto.machineType
  gcpRegion : node.gcpRegion = some dto.gcpRegion
  quantity : node.quantity = some dto.machineQuantity
  diskSizeGb : node.diskSizeGb = some dto.diskSize
  seconds : ∃ q, node.seconds = some q ∧ dto.inactivityTimeout = ⌊q / 60⌋

lemma eq_some_getD {o : Option Json} (h : o.isSome) (default : Json) :
    o = some (o.getD default) := by
  obtain ⟨v, rfl⟩ := Option.isSome_iff_exists.1 h
  rfl

lemma shows_of_getSettings (h : getSettings provider head = .ok dto)
    (hnodes : head.shown.nodes = some (node :: rest)) (hnode : node.Complete) :
    Shows dto node ∧ (dto.maxVcpus, dto.maxGpus) = resourceCaps provider head.shown ∧
      dto.users = head.users := by
  obtain ⟨container, hcontainer, himage⟩ := exists_container hnode.image
  obtain ⟨q, hq⟩ := Option.isSome_iff_exists.1 hnode.seconds
  obtain ⟨value, hvalue, hnumber⟩ := Option.bind_eq_some_iff.1 hq
  have hfirst : head.shown.firstNode = .ok (node, rest) := by
    rw [Config.firstNode, hnodes]
  have hminutes : minutes (node.inactivityShutdownTimeSec.getD (.int 600)) = .ok ⌊q / 60⌋ := by
    rw [minutes, hvalue, Option.getD_some, hnumber]
  rw [getSettings, hfirst] at h
  dsimp only [bind, Except.bind] at h
  rw [hcontainer] at h
  dsimp only at h
  rw [hminutes] at h
  obtain rfl := Except.ok.inj h
  refine ⟨⟨?_, eq_some_getD hnode.machineType _, eq_some_getD hnode.gcpRegion _,
    eq_some_getD hnode.quantity _, eq_some_getD hnode.diskSizeGb _, q, hq, rfl⟩, rfl, rfl⟩
  exact himage.trans (eq_some_getD (himage ▸ hnode.image) _)

/-! ### What is saved -/

lemma given_eq_self_iff {current : Option Json} (h : current.isSome) (chosen : Bool) (value : Json) :
    given (if chosen then some value else none) current = current ↔
      (chosen → current = some value) := by
  obtain ⟨v, rfl⟩ := Option.isSome_iff_exists.1 h
  cases chosen with
  | false => simp [given]
  | true => simp [given, eq_comm]

/-- The values that are posted are those of a node spec. -/
structure Agrees (S : Field → Bool) (dto : SettingsDto) (node : NodeSpec) : Prop where
  image : S .containerImage → node.image = some dto.containerImage
  machineType : S .machineType → node.machineType = some dto.machineType
  gcpRegion : S .gcpRegion → node.gcpRegion = some dto.gcpRegion
  quantity : S .machineQuantity → node.quantity = some dto.machineQuantity
  diskSizeGb : S .diskSize → node.diskSizeGb = some dto.diskSize
  seconds : S .inactivityTimeout → node.seconds = some (60 * dto.inactivityTimeout : ℚ)

lemma seconds_updated (hnode : node.Complete) :
    (node.updatedSeconds (dto.pick S)).bind Json.number = node.seconds ↔
      (S .inactivityTimeout → node.seconds = some (60 * dto.inactivityTimeout : ℚ)) := by
  rw [NodeSpec.updatedSeconds, SettingsDto.pick]
  dsimp only
  cases S .inactivityTimeout with
  | false =>
    obtain ⟨q, hq⟩ := Option.isSome_iff_exists.1 hnode.seconds
    obtain ⟨value, hvalue, hnumber⟩ := Option.bind_eq_some_iff.1 hq
    rw [NodeSpec.seconds, hvalue]
    simp
  | true =>
    have hnumber : (some (Json.int (dto.inactivityTimeout * 60))).bind Json.number =
        some (60 * dto.inactivityTimeout : ℚ) := by
      show some ((dto.inactivityTimeout * 60 : ℤ) : ℚ) = _
      push_cast
      rw [mul_comm]
    rw [if_pos rfl]
    show (some (Json.int (dto.inactivityTimeout * 60))).bind Json.number = _ ↔ _
    rw [hnumber, eq_comm]
    exact ⟨fun h _ => h, fun h => h rfl⟩

/-- **The node fields are as they were** if the values that are posted are theirs. -/
lemma fields_updated_iff (hnode : node.Complete) (himage : node.image = container.image) :
    (node.updated container (dto.pick S)).fields = node.fields ↔ Agrees S dto node := by
  have hcontainer := himage ▸ hnode.image
  rw [NodeSpec.fields, NodeSpec.fields, NodeFields.mk.injEq]
  have h₁ := given_eq_self_iff hcontainer (S .containerImage) dto.containerImage
  have h₂ := given_eq_self_iff hnode.machineType (S .machineType) dto.machineType
  have h₃ := given_eq_self_iff hnode.gcpRegion (S .gcpRegion) dto.gcpRegion
  have h₄ := given_eq_self_iff hnode.quantity (S .machineQuantity) dto.machineQuantity
  have h₅ := given_eq_self_iff hnode.diskSizeGb (S .diskSize) dto.diskSize
  have h₆ : _ ↔ (S .inactivityTimeout → node.seconds = some (60 * dto.inactivityTimeout : ℚ)) :=
    seconds_updated hnode
  rw [← himage] at h₁
  constructor
  · rintro ⟨g₁, g₂, g₃, g₄, g₅, g₆⟩
    refine ⟨h₁.1 ?_, h₂.1 g₂, h₃.1 g₃, h₄.1 g₄, h₅.1 g₅, h₆.1 g₆⟩
    rw [himage] at g₁ ⊢
    exact g₁
  · intro h
    refine ⟨?_, h₂.2 h.machineType, h₃.2 h.gcpRegion, h₄.2 h.quantity, h₅.2 h.diskSizeGb,
      h₆.2 h.seconds⟩
    have g₁ := h₁.2 h.image
    rw [himage] at g₁ ⊢
    exact g₁

lemma updatedConfig_eq (hnodes : config.nodes = some (node :: rest))
    (hcontainer : node.container = .ok container) (body : Body) :
    updatedConfig provider config body = .ok { config with
      nodes := some (node.updated container body :: rest)
      maxVcpus := some (body.maxVcpus.getD (resourceCaps provider config).1)
      maxGpus := some ((resourceCaps provider config).2.update (body.maxGpus.getD .empty)) } := by
  have hfirst : config.firstNode = .ok (node, rest) := by
    rw [Config.firstNode, hnodes]
  rw [updatedConfig, hfirst]
  dsimp only [bind, Except.bind]
  rw [hcontainer]

/-- Caps that are read from a config that has them are those. -/
lemma resourceCaps_of_caps {config' : Config} (hvcpus : config'.maxVcpus =
      some (resourceCaps provider config).1)
    (hgpus : config'.maxGpus = some (resourceCaps provider config).2) :
    resourceCaps provider config' = resourceCaps provider config := by
  refine Prod.ext ?_ ?_
  · show config'.maxVcpus.getD _ = _
    rw [hvcpus, Option.getD_some]
  · have hvalue : ∀ model ∈ gpuModels provider,
        ((((config'.maxGpus.getD .empty).get model).getD defaultMaxGpusPerModel) =
          (((config.maxGpus.getD .empty).get model).getD defaultMaxGpusPerModel)) := by
      intro model hmodel
      rw [hgpus, Option.getD_some, resourceCaps, Dict.get_ofKeys, if_pos hmodel, Option.getD_some]
    exact Dict.ofKeys_congr hvalue

/-- The caps that are saved are those that there were, when those that are posted are. -/
lemma resourceCaps_updated {config' : Config}
    (hcaps : (dto.maxVcpus, dto.maxGpus) = resourceCaps provider config)
    (hvcpus : config'.maxVcpus =
      some ((dto.pick S).maxVcpus.getD (resourceCaps provider config).1))
    (hgpus : config'.maxGpus =
      some ((resourceCaps provider config).2.update ((dto.pick S).maxGpus.getD .empty))) :
    resourceCaps provider config' = resourceCaps provider config := by
  rw [← hcaps] at hvcpus hgpus
  refine resourceCaps_of_caps (hvcpus.trans ?_) (hgpus.trans ?_)
  · rw [← hcaps, SettingsDto.pick]
    cases S .maxVcpus <;> rfl
  · rw [← hcaps, SettingsDto.pick]
    dsimp only
    cases S .maxGpus with
    | false => rfl
    | true =>
      have hself : dto.maxGpus.update dto.maxGpus = dto.maxGpus :=
        Dict.update_eq_self_iff.2 fun e he => Dict.mem_items.1 he
      rw [if_pos rfl, Option.getD_some, hself]

/-- What is shown of one node spec is what another one has, but for what is forced. -/
structure Alike (S : Field → Bool) (g node : NodeSpec) : Prop where
  image : g.image = node.image
  machineType : S .machineType → g.machineType = node.machineType
  gcpRegion : g.gcpRegion = node.gcpRegion
  quantity : S .machineQuantity → g.quantity = node.quantity
  diskSizeGb : g.diskSizeGb = node.diskSizeGb
  seconds : g.seconds = node.seconds

/-- **What was shown of the node is what it has**, when its timeout is a whole number of minutes. -/
lemma agrees_iff {g : NodeSpec} (hshows : Shows dto g) (h : Alike S g node) :
    Agrees S dto node ↔
      (S .inactivityTimeout → ∃ k : ℤ, node.seconds = some (60 * k : ℚ)) := by
  constructor
  · intro hagrees htimeout
    exact ⟨_, hagrees.seconds htimeout⟩
  · intro hwhole
    refine ⟨fun _ => h.image ▸ hshows.image, fun hs => h.machineType hs ▸ hshows.machineType,
      fun _ => h.gcpRegion ▸ hshows.gcpRegion, fun hs => h.quantity hs ▸ hshows.quantity,
      fun _ => h.diskSizeGb ▸ hshows.diskSizeGb, fun htimeout => ?_⟩
    obtain ⟨k, hk⟩ := hwhole htimeout
    obtain ⟨q, hq, hminutes⟩ := hshows.seconds
    have heq : q = 60 * k := by
      rw [h.seconds, hk] at hq
      exact (Option.some.inj hq).symm
    have hfloor : ⌊q / 60⌋ = k := by
      rw [heq, mul_div_cancel_left₀ _ (by norm_num), Int.floor_intCast]
    rw [hk, hminutes, hfloor]

end Shown

/-! ### The round trip -/

section RoundTrip

variable {backend : Backend} {provider : CloudProvider} {head : Head} {dto : SettingsDto}
  {S : Field → Bool}

/-- The users are kept if they are posted, or when there are none. -/
lemma syncUsers_pick_iff (hbackend : backend.Removes) (husers : dto.users = head.users) :
    syncUsers backend head.users ((dto.pick S).users.getD []) = (head.users, none) ↔
      (S .users ∨ head.users = []) := by
  rw [SettingsDto.pick]
  dsimp only
  cases S .users with
  | true =>
    rw [if_pos rfl, Option.getD_some, husers, syncUsers_self]
    exact iff_of_true rfl (.inl rfl)
  | false =>
    rw [if_neg Bool.false_ne_true, Option.getD_none, syncUsers_nil_iff hbackend]
    simp

lemma fields_forced_congr {node node' : NodeSpec} (h : node.fields = node'.fields) :
    (node.forced provider).fields = (node'.forced provider).fields := by
  rw [NodeSpec.fields, NodeSpec.fields, NodeFields.mk.injEq] at *
  obtain ⟨h₁, -, h₃, -, h₅, h₆⟩ := h
  exact ⟨h₁, rfl, h₃, rfl, h₅, h₆⟩

/-- A node spec whose fields are those of a forced one is like it, but for what is forced. -/
lemma alike_of_forced {g node : NodeSpec} (h : g.fields = (node.forced provider).fields)
    (hmt : S .machineType → node.machineType = (node.forced provider).machineType)
    (hquantity : S .machineQuantity → node.quantity = (node.forced provider).quantity) :
    Alike S g node := by
  rw [NodeSpec.fields, NodeSpec.fields, NodeFields.mk.injEq] at h
  obtain ⟨h₁, h₂, h₃, h₄, h₅, h₆⟩ := h
  exact ⟨h₁, fun hs => h₂.trans (hmt hs).symm, h₃, fun hs => h₄.trans (hquantity hs).symm, h₅, h₆⟩

/-- What a request does when the config can be updated. -/
lemma updateSettings_eq {saved : Config} {body : Body}
    (hsaved : updatedConfig provider head.stored body = .ok saved) :
    updateSettings backend provider head body =
      (⟨saved, head.localDev.map fun localDev => localDev.followed provider saved,
        (syncUsers backend head.users (body.users.getD [])).1⟩,
        (syncUsers backend head.users (body.users.getD [])).2) := by
  rw [updateSettings, hsaved]

lemma nodeFields_of_nodes {config : Config} {node : NodeSpec} {rest : List NodeSpec}
    (hnodes : config.nodes = some (node :: rest)) :
    config.nodeFields = node.fields :: rest.map NodeSpec.fields := by
  rw [Config.nodeFields, Config.nodeSpecs, hnodes]
  rfl

/-- The first node spec of the config that follows another one is forced. -/
lemma nodes_followed (provider : CloudProvider) (localDev : Config) {saved : Config}
    {node : NodeSpec} {rest : List NodeSpec} (hnodes : saved.nodes = some (node :: rest)) :
    (localDev.followed provider saved).nodes = some (node.forced provider :: rest) := by
  rw [Config.followed, hnodes]
  rfl

lemma fields_forcedNodes (provider : CloudProvider) {config : Config} {node : NodeSpec}
    {rest : List NodeSpec} (hnodes : config.nodes = some (node :: rest)) :
    (forcedNodes provider config.nodeSpecs).map NodeSpec.fields =
      (node.forced provider).fields :: rest.map NodeSpec.fields := by
  rw [Config.nodeSpecs, hnodes]
  rfl

lemma wholeMinutes_iff {config : Config} {node : NodeSpec} {rest : List NodeSpec}
    (hnodes : config.nodes = some (node :: rest)) :
    config.WholeMinutes ↔ ∃ k : ℤ, node.seconds = some (60 * k : ℚ) := by
  constructor
  · exact fun h => h node rest hnodes
  · intro h node' rest' hnodes'
    obtain ⟨rfl, rfl⟩ := List.cons.inj (Option.some.inj (hnodes.symm.trans hnodes'))
    exact h

/-- **Settings are kept** if and only if the users are posted or there are none, a timeout that is
posted is a whole number of minutes, and the config of local development follows the stored one. -/
theorem keeps_iff (backend : Backend) (hbackend : backend.Removes) (provider : CloudProvider)
    (head : Head) (hstored : head.stored.Complete) (hshown : head.shown.Complete)
    (S : Field → Bool) {dto : SettingsDto} (hdto : getSettings provider head = .ok dto) :
    Keeps backend provider head (dto.pick S) ↔ Kept provider head S := by
  obtain ⟨node, rest, hnodes, hnode⟩ := hstored
  obtain ⟨g, grest, hgnodes, hg⟩ := hshown
  obtain ⟨hshows, hcaps, husers⟩ := shows_of_getSettings hdto hgnodes hg
  obtain ⟨container, hcontainer, himage⟩ := exists_container hnode.image
  obtain ⟨saved, hsaved, hspecs, hvcpus, hgpus⟩ : ∃ saved,
      updatedConfig provider head.stored (dto.pick S) = .ok saved ∧
      saved.nodes = some (node.updated container (dto.pick S) :: rest) ∧
      saved.maxVcpus =
        some ((dto.pick S).maxVcpus.getD (resourceCaps provider head.stored).1) ∧
      saved.maxGpus = some ((resourceCaps provider head.stored).2.update
        ((dto.pick S).maxGpus.getD .empty)) :=
    ⟨_, updatedConfig_eq hnodes hcontainer (dto.pick S), rfl, rfl, rfl⟩
  have hsync : syncUsers backend head.users ((dto.pick S).users.getD []) = (head.users, none) ↔
      (S .users ∨ head.users = []) := syncUsers_pick_iff hbackend husers
  have hfields : saved.nodeFields = head.stored.nodeFields ↔ Agrees S dto node := by
    rw [← fields_updated_iff hnode himage, nodeFields_of_nodes hspecs, nodeFields_of_nodes hnodes,
      List.cons.injEq]
    exact and_iff_left rfl
  rw [Keeps, updateSettings_eq hsaved]
  cases hlocal : head.localDev with
  | none =>
    -- the stored config is the one that was shown
    have hshown : head.shown = head.stored := by rw [Head.shown, hlocal, Option.getD_none]
    obtain ⟨rfl, -⟩ : g = node ∧ grest = rest := by
      rw [hshown, hnodes] at hgnodes
      obtain ⟨h₁, h₂⟩ := List.cons.inj (Option.some.inj hgnodes)
      exact ⟨h₁.symm, h₂.symm⟩
    rw [hshown] at hcaps
    have hkeptCaps := resourceCaps_updated hcaps hvcpus hgpus
    have halike : Alike S g g := ⟨rfl, fun _ => rfl, rfl, fun _ => rfl, rfl, rfl⟩
    rw [agrees_iff hshows halike, ← wholeMinutes_iff hnodes] at hfields
    constructor
    · rintro ⟨hraised, hkeptUsers, hsame, -⟩
      refine ⟨hsync.1 (Prod.ext hkeptUsers hraised), hfields.1 hsame.1, fun localDev h => ?_⟩
      rw [hlocal] at h
      cases h
    · intro hkept
      have hok := hsync.2 hkept.users
      refine ⟨congrArg Prod.snd hok, congrArg Prod.fst hok,
        ⟨hfields.2 hkept.minutes, hkeptCaps⟩, fun localDev h => ?_⟩
      cases h
  | some localDev =>
    have hshown : head.shown = localDev := by rw [Head.shown, hlocal, Option.getD_some]
    rw [hshown] at hcaps hgnodes
    have hfollowed := nodeFields_of_nodes (nodes_followed provider localDev hspecs)
    have hfollowedCaps : resourceCaps provider (localDev.followed provider saved) =
        resourceCaps provider saved := rfl
    have hforced := fields_forcedNodes provider hnodes
    have hlocalFields := nodeFields_of_nodes hgnodes
    constructor
    · rintro ⟨hraised, hkeptUsers, hsame, hlocalSame⟩
      have hagrees := hfields.1 hsame.1
      obtain ⟨hlocalKept, hlocalCaps⟩ := hlocalSame localDev rfl _ rfl
      have hupdated := (fields_updated_iff hnode himage).2 hagrees
      rw [hfollowed, fields_forced_congr hupdated, hlocalFields, List.cons.injEq] at hlocalKept
      have hmt : g.machineType = (node.forced provider).machineType :=
        (congrArg NodeFields.machineType hlocalKept.1).symm
      have hquantity : g.quantity = (node.forced provider).quantity :=
        (congrArg NodeFields.quantity hlocalKept.1).symm
      refine ⟨hsync.1 (Prod.ext hkeptUsers hraised), ?_, fun localDev' h => ?_⟩
      · intro htimeout
        exact (wholeMinutes_iff hnodes).2 ⟨_, hagrees.seconds htimeout⟩
      · obtain rfl := Option.some.inj (hlocal.symm.trans h)
        refine ⟨⟨?_, ?_⟩, fun node' rest' hnodes' => ?_⟩
        · rw [hforced, hlocalFields, hlocalKept.1, hlocalKept.2]
        · exact hlocalCaps.symm.trans (hfollowedCaps.trans hsame.2)
        · obtain ⟨rfl, rfl⟩ := List.cons.inj (Option.some.inj (hnodes.symm.trans hnodes'))
          exact ⟨fun hs => (hagrees.machineType hs).trans (hshows.machineType.symm.trans hmt),
            fun hs => (hagrees.quantity hs).trans (hshows.quantity.symm.trans hquantity)⟩
    · intro hkept
      have hok := hsync.2 hkept.users
      obtain ⟨⟨hnodeFields, hlocalCaps⟩, hposted⟩ := hkept.localDev localDev hlocal
      obtain ⟨hmt, hquantity⟩ := hposted node rest hnodes
      rw [hlocalFields, hforced, List.cons.injEq] at hnodeFields
      have halike := alike_of_forced hnodeFields.1 hmt hquantity
      have hagrees : Agrees S dto node := by
        rw [agrees_iff hshows halike]
        exact fun hs => (wholeMinutes_iff hnodes).1 (hkept.minutes hs)
      have hkeptCaps := resourceCaps_updated (hcaps.trans hlocalCaps) hvcpus hgpus
      refine ⟨congrArg Prod.snd hok, congrArg Prod.fst hok, ⟨hfields.2 hagrees, hkeptCaps⟩, ?_⟩
      intro localDev' h' after hafter
      obtain rfl := Option.some.inj h'
      obtain rfl := Option.some.inj hafter
      have hupdated := (fields_updated_iff hnode himage).2 hagrees
      refine ⟨?_, ?_⟩
      · rw [hfollowed, fields_forced_congr hupdated, hlocalFields, hnodeFields.1, hnodeFields.2]
      · exact hfollowedCaps.trans (hkeptCaps.trans hlocalCaps.symm)

end RoundTrip

/-! ### Users that are not posted -/

/-- A backend that takes every request. -/
def willing : Backend where
  addUser users email := some (users ++ [email])
  removeUser users email := some (users.filter fun user => decide (user = email) = false)

lemma willing_removes : willing.Removes := by
  intro users email users' h
  obtain rfl := Option.some.inj h
  refine ⟨fun hmem => ?_, List.filter_sublist.subset⟩
  have := (List.mem_filter.1 hmem).2
  simp at this

/-- A node spec with a timeout of ten minutes. -/
def deployedNode : NodeSpec where
  containers := some [⟨some (.str "python:3.12".toList), none, none⟩]
  machineType := some (.str "n4-standard-4".toList)
  gcpRegion := some (.str "us-central1".toList)
  quantity := some (.int 1)
  diskSizeGb := some (.int 50)
  inactivityShutdownTimeSec := some (.int 600)

/-- A deployed head with one user. -/
def deployed : Head where
  stored := ⟨some [deployedNode], none, none, none⟩
  localDev := none
  users := ["owner".toList]

lemma deployed_complete : deployed.stored.Complete :=
  ⟨_, _, rfl, rfl, rfl, rfl, rfl, rfl, rfl⟩

/-- What is shown of it. -/
def deployedDto : SettingsDto where
  containerImage := .str "python:3.12".toList
  machineType := .str "n4-standard-4".toList
  gcpRegion := .str "us-central1".toList
  machineQuantity := .int 1
  diskSize := .int 50
  inactivityTimeout := 10
  maxVcpus := .int 2560
  maxGpus := (resourceCaps .gcp deployed.stored).2
  users := ["owner".toList]
  filesystemEnabled := false

lemma getSettings_deployed : getSettings .gcp deployed = .ok deployedDto := by
  have hten : ⌊(600 : ℚ) / 60⌋ = 10 := by norm_num
  have hminutes : minutes (.int 600) = .ok 10 := by
    show Except.ok ⌊((600 : ℤ) : ℚ) / 60⌋ = _
    rw [Int.cast_ofNat, hten]
  have hfirst : deployed.shown.firstNode = .ok (deployedNode, []) := rfl
  have hcontainer : deployedNode.container =
      .ok ⟨some (.str "python:3.12".toList), none, none⟩ := rfl
  have hseconds : deployedNode.inactivityShutdownTimeSec.getD (.int 600) = .int 600 := rfl
  rw [getSettings, hfirst]
  dsimp only [bind, Except.bind]
  rw [hcontainer, hseconds]
  dsimp only
  rw [hminutes]
  rfl

/-- With its users, all settings of it can be posted as they were shown. -/
theorem keeps_iff_deployed : Keeps willing .gcp deployed (deployedDto.pick fun _ => true) := by
  refine (keeps_iff willing willing_removes .gcp deployed deployed_complete deployed_complete _
    getSettings_deployed).2 ⟨.inl rfl, fun _ => ?_, fun localDev h => nomatch h⟩
  refine (wholeMinutes_iff rfl).2 ⟨10, ?_⟩
  show some ((600 : ℤ) : ℚ) = _
  norm_num

/-- **Posting the machine type removes the user.** -/
theorem users_removed_by_machineType : deployed.stored.Complete ∧
    getSettings .gcp deployed = .ok deployedDto ∧
    ¬Keeps willing .gcp deployed (deployedDto.pick fun field => field = .machineType) := by
  refine ⟨deployed_complete, getSettings_deployed, fun h => ?_⟩
  have husers : ([] : List Text) = ["owner".toList] := h.2.1
  cases husers

end Burla.Settings
