/-
The settings of a cluster (endpoints/settings.py): what `GET /v1/settings` shows of the stored
config, and what `POST /v1/settings` makes of it and of the list of users, which the backend has.

A config is JSON, so that any of its values may be missing.  In local development there is a second
config, `LOCAL_DEV_CONFIG`, which is the one that is shown.
-/
import Burla.Lib.Buckets
import Burla.Scaling.Catalog
import Mathlib.Data.Rat.Floor

namespace Burla.Settings

open Burla.Scaling (CloudProvider Text startsWith gpuMachineTypes)

-- One proof for every test of whether a text is among others.
local instance lawfulBEq_text : LawfulBEq Text := inferInstance

/-- A value of a config. -/
inductive Json
  | null
  | bool (b : Bool)
  | int (n : ℤ)
  | float (q : ℚ)
  | str (s : Text)
  deriving DecidableEq, Repr

/-- The number that a value is, a boolean being one as well. -/
def Json.number : Json → Option ℚ
  | .bool b => some (if b then 1 else 0)
  | .int n => some n
  | .float q => some q
  | _ => none

/-- The integer that a value is, by `isinstance(value, int)`. -/
def Json.asInt : Json → Option ℤ
  | .bool b => some (if b then 1 else 0)
  | .int n => some n
  | _ => none

/-- An image, and what an older version has found out about it. -/
structure Container where
  image : Option Json
  pythonCommand : Option Json
  pythonVersion : Option Json
  deriving DecidableEq, Repr

def Container.empty : Container := ⟨none, none, none⟩

structure NodeSpec where
  containers : Option (List Container)
  machineType : Option Json
  gcpRegion : Option Json
  quantity : Option Json
  diskSizeGb : Option Json
  inactivityShutdownTimeSec : Option Json
  deriving DecidableEq, Repr

def NodeSpec.empty : NodeSpec := ⟨none, none, none, none, none, none⟩

structure Config where
  nodes : Option (List NodeSpec)
  gcsBucketName : Option Text
  maxVcpus : Option Json
  maxGpus : Option (Dict Text Json)

inductive Raised
  | indexError
  | typeError
  /-- `response.raise_for_status()` -/
  | backend
  deriving DecidableEq, Repr

/-! ### Caps -/

/-- `_GPU_FAMILIES`, with the models only. -/
def gpuFamilyModels : List (Text × Text) :=
  [("a2-highgpu".toList, "A100".toList), ("a2-ultragpu".toList, "A100".toList),
    ("a3-highgpu".toList, "H100".toList), ("g4dn.".toList, "T4".toList),
    ("p4de.".toList, "A100".toList), ("p4d.".toList, "A100".toList), ("p5.".toList, "H100".toList)]

/-- `gpu_model` -/
def gpuModel (machineType : Text) : Option Text :=
  (gpuFamilyModels.find? fun e => startsWith e.1 machineType).map Prod.snd

/-- `gpu_models` -/
def gpuModels (provider : CloudProvider) : List Text :=
  ((gpuMachineTypes provider).filterMap fun e => gpuModel e.2).foldl
    (fun models model => if model ∈ models then models else models ++ [model]) []

/-- `DEFAULT_MAX_VCPUS` -/
def defaultMaxVcpus : Json := .int 2560

/-- `DEFAULT_MAX_GPUS_PER_MODEL` -/
def defaultMaxGpusPerModel : Json := .int 8

/-- `resource_caps` -/
def resourceCaps (provider : CloudProvider) (config : Config) : Json × Dict Text Json :=
  let configured := config.maxGpus.getD .empty
  (config.maxVcpus.getD defaultMaxVcpus,
    .ofKeys (fun model => (configured.get model).getD defaultMaxGpusPerModel) (gpuModels provider))

/-! ### What is shown -/

/-- The state of a head, and the users that the backend has authorized. -/
structure Head where
  stored : Config
  /-- `LOCAL_DEV_CONFIG`, in local development -/
  localDev : Option Config
  users : List Text

/-- The config that is shown. -/
def Head.shown (head : Head) : Config := head.localDev.getD head.stored

/-- `config_dict.get("Nodes", [{}])[0]`, with the other nodes. -/
def Config.firstNode (config : Config) : Except Raised (NodeSpec × List NodeSpec) :=
  match config.nodes with
  | none => .ok (.empty, [])
  | some [] => .error .indexError
  | some (node :: rest) => .ok (node, rest)

/-- `node.get("containers", [{}])[0]` -/
def NodeSpec.container (node : NodeSpec) : Except Raised Container :=
  match node.containers with
  | none => .ok .empty
  | some [] => .error .indexError
  | some (container :: _) => .ok container

/-- `int(value // 60)` -/
def minutes (value : Json) : Except Raised ℤ :=
  match value.number with
  | some seconds => .ok ⌊seconds / 60⌋
  | none => .error .typeError

structure SettingsDto where
  containerImage : Json
  machineType : Json
  gcpRegion : Json
  machineQuantity : Json
  diskSize : Json
  inactivityTimeout : ℤ
  maxVcpus : Json
  maxGpus : Dict Text Json
  users : List Text
  filesystemEnabled : Bool

/-- `get_settings` -/
def getSettings (provider : CloudProvider) (head : Head) : Except Raised SettingsDto := do
  let (node, _) ← head.shown.firstNode
  let container ← node.container
  let (maxVcpus, maxGpus) := resourceCaps provider head.shown
  let inactivityTimeout ← minutes (node.inactivityShutdownTimeSec.getD (.int 600))
  .ok {
    containerImage := container.image.getD (.str [])
    machineType := node.machineType.getD (.str [])
    gcpRegion := node.gcpRegion.getD (.str [])
    machineQuantity := node.quantity.getD (.int 1)
    diskSize := node.diskSizeGb.getD (.int 50)
    inactivityTimeout := inactivityTimeout
    maxVcpus := maxVcpus
    maxGpus := maxGpus
    users := head.users
    filesystemEnabled := head.shown.gcsBucketName.any (· ≠ []) }

/-! ### What is posted -/

/-- The body of a `POST`; any field may be missing. -/
structure Body where
  containerImage : Option Json
  machineType : Option Json
  gcpRegion : Option Json
  machineQuantity : Option Json
  diskSize : Option Json
  inactivityTimeout : Option Json
  maxVcpus : Option Json
  maxGpus : Option (Dict Text Json)
  users : Option (List Text)

/-- `request_json.get(field, current)`: a value that is in neither is `None`. -/
def given (field current : Option Json) : Option Json := some (field.getD (current.getD .null))

/-- The container of the first node, without what has been found out about its image. -/
def Container.updated (container : Container) (body : Body) : Container :=
  ⟨given body.containerImage container.image, none, none⟩

/-- A timeout that is an integer is one of minutes. -/
def NodeSpec.updatedSeconds (node : NodeSpec) (body : Body) : Option Json :=
  match body.inactivityTimeout.bind Json.asInt with
  | some n => some (.int (n * 60))
  | none => some (node.inactivityShutdownTimeSec.getD .null)

def NodeSpec.updated (node : NodeSpec) (container : Container) (body : Body) : NodeSpec where
  containers := some [container.updated body]
  machineType := given body.machineType node.machineType
  gcpRegion := given body.gcpRegion node.gcpRegion
  quantity := given body.machineQuantity node.quantity
  diskSizeGb := given body.diskSize node.diskSizeGb
  inactivityShutdownTimeSec := node.updatedSeconds body

/-- The config that is saved. -/
def updatedConfig (provider : CloudProvider) (config : Config) (body : Body) :
    Except Raised Config := do
  let (node, rest) ← config.firstNode
  let container ← node.container
  let (maxVcpus, maxGpus) := resourceCaps provider config
  .ok { config with
    nodes := some (node.updated container body :: rest)
    maxVcpus := some (body.maxVcpus.getD maxVcpus)
    -- caps are merged by models
    maxGpus := some (maxGpus.update (body.maxGpus.getD .empty)) }

/-- The machine type that local development has. -/
def localMachineType : CloudProvider → Text
  | .gcp => "n4-standard-2".toList
  | .aws => "m7i.large".toList
  | .azure => "Standard_D2s_v6".toList

/-- A node spec with a small machine, one of them. -/
def NodeSpec.forced (provider : CloudProvider) (node : NodeSpec) : NodeSpec :=
  { node with machineType := some (.str (localMachineType provider)), quantity := some (.int 1) }

/-- The first node of some is forced. -/
def forcedNodes (provider : CloudProvider) : List NodeSpec → List NodeSpec
  | [] => []
  | node :: rest => node.forced provider :: rest

/-- What `LOCAL_DEV_CONFIG` becomes. -/
def Config.followed (localDev : Config) (provider : CloudProvider) (saved : Config) : Config :=
  { localDev with
    nodes := saved.nodes.map (forcedNodes provider)
    maxVcpus := saved.maxVcpus
    maxGpus := saved.maxGpus }

/-- The requests of the backend for its list of users; one that is refused has no list. -/
structure Backend where
  addUser : List Text → Text → Option (List Text)
  removeUser : List Text → Text → Option (List Text)

/-- One request after another, as long as none is refused. -/
def requestAll (request : List Text → Text → Option (List Text)) :
    List Text → List Text → List Text × Option Raised
  | [], users => (users, none)
  | email :: emails, users =>
    match request users email with
    | none => (users, some .backend)
    | some users' => requestAll request emails users'

/-- New users are added, and those that are not in the new list removed. -/
def syncUsers (backend : Backend) (current new : List Text) : List Text × Option Raised :=
  match requestAll backend.addUser (new.filter fun email => email ∉ current) current with
  | (users, some e) => (users, some e)
  | (users, none) =>
    requestAll backend.removeUser (current.filter fun email => email ∉ new) users

/-- `update_settings`: the state that is left, and what was raised. -/
def updateSettings (backend : Backend) (provider : CloudProvider) (head : Head) (body : Body) :
    Head × Option Raised :=
  match updatedConfig provider head.stored body with
  | .error e => (head, some e)
  | .ok saved =>
    let localDev := head.localDev.map fun localDev => localDev.followed provider saved
    let (users, raised) := syncUsers backend head.users (body.users.getD [])
    (⟨saved, localDev, users⟩, raised)

end Burla.Settings
