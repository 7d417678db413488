import Mathlib.Data.List.Destutter
import Mathlib.Data.List.Sort
import Nasty.Lib.Proc
import Nasty.Lib.Text

/-!
# Apps and the commands that work on them

An app is one container (a simple app) or a compose project. What the engine keeps of it lies in
`/var/lib/nasty/apps`: the sidecar `<name>.json` with its settings, and for a compose project the
directory `<name>`. Caddy holds a route to it, which is its ingress, and Docker its containers.

The commands are the single reads and writes of these: of the sidecars and project directories, of
the registry credentials and the system settings, and the requests to Docker and Caddy.
-/

namespace Nasty.Apps

open Proc

abbrev Name := List Char

inductive AppsError
  | notEnabled
  | notReady (text : String)
  | appNotFound (name : Name)
  | appAlreadyExists (name : Name)
  | dockerFailed (text : String)
  | commandFailed (text : String)
  | io (text : String)
  | forbiddenBind (text : String)
  | invalidNetwork (text : String)
  | invalidName (text : String)
  | invalidRegistryCredential (text : String)
  deriving DecidableEq

/-! ## Names -/

/-- The names that an existing app may have: older releases allowed dots. -/
def validateAppName (name : Name) : Except AppsError Unit := do
  .refuse (name = [] ∨ Text.utf8Len name > 250) (.invalidName "name must be 1-250 bytes")
  .refuse (¬ (name.head?.any Char.isAlphanum ∧
      name.tail.all fun c => c.isAlphanum ∨ c = '_' ∨ c = '-' ∨ c = '.'))
    (.invalidName ("existing app names must be a single component of [A-Za-z0-9._-] " ++
      "starting with a letter or number"))

def validateNewAppName (name : Name) : Except AppsError Unit := do
  .refuse (name = [] ∨ Text.utf8Len name > 63) (.invalidName "name must be 1-63 bytes")
  .refuse (¬ (name.head?.any (fun c => c.isLower ∨ c.isDigit) ∧
      name.tail.all fun c => c.isLower ∨ c.isDigit ∨ c = '_' ∨ c = '-'))
    (.invalidName "new app names must match [a-z0-9][a-z0-9_-]\x7b0,62\x7d")

def containerName (app : Name) : Name := "nasty-".toList ++ app

/-! ## Sidecars -/

structure StartupConfig where
  managed : Bool
  order : ℕ
  delaySecs : ℕ

def maxStartupDelaySecs : ℕ := 300

structure Manifest where
  /-- The base fields of a simple app are there: its name, image and kind. -/
  simple : Bool
  registryCredentialIds : List Name
  ingressSubdomain : Option Name
  ingressHostPort : Option ℕ
  proxyDisabledReason : Option String
  startup : Option StartupConfig

def Manifest.empty : Manifest := ⟨false, [], none, none, none, none⟩

/-- What the engine writes into a sidecar, which it makes if it is missing, under one lock. -/
inductive Edit
  | base (ids : List Name)
  | ingressSubdomain (subdomain : Option Name)
  | ingressHostPort (port : Option ℕ)
  | proxyDisabledReason (reason : String)
  | registryCredentialIds (ids : List Name)
  | startup (config : StartupConfig)

def Edit.apply (m : Manifest) : Edit → Manifest
  | base ids => { m with simple := true, registryCredentialIds := ids, proxyDisabledReason := none }
  | ingressSubdomain subdomain => { m with ingressSubdomain := subdomain }
  | ingressHostPort port => { m with ingressHostPort := port }
  | proxyDisabledReason reason => { m with proxyDisabledReason := some reason }
  | registryCredentialIds ids => { m with registryCredentialIds := ids }
  | startup config =>
    { m with startup := some { config with delaySecs := min config.delaySecs maxStartupDelaySecs } }

/-! ## Hostnames -/

def eqIgnoreAsciiCase (a b : Name) : Bool := a.map Char.toLower = b.map Char.toLower

/-- A hostname field without the surrounding whitespace; an empty one is none. -/
def nonempty (text : Name) : Option Name :=
  if Text.trim text = [] then none else some (Text.trim text)

def validateLabel (host label : Name) : Except String Unit := do
  .refuse (label = []) ("subdomain '" ++ .ofList host ++ "' has an empty label")
  .refuse (Text.utf8Len label > 63) ("subdomain '" ++ .ofList host ++
    "' has a label longer than 63 chars: '" ++ .ofList label ++ "'")
  .refuse (label.head? = some '-' ∨ label.getLast? = some '-') ("subdomain '" ++ .ofList host ++
    "' label '" ++ .ofList label ++ "' may not start or end with '-'")
  .refuse (¬ label.all fun c => c.isAlphanum ∨ c = '-') ("subdomain '" ++ .ofList host ++
    "' label '" ++ .ofList label ++
    "' contains invalid characters (only A-Z, a-z, 0-9, '-' allowed)")

def validateSubdomain (host : Name) : Except String Unit := do
  .refuse (host = []) "subdomain must not be empty"
  .refuse (Text.utf8Len host > 253)
    ("subdomain too long (" ++ toString (Text.utf8Len host) ++ " > 253 chars)")
  .refuse ('.' ∉ host) ("subdomain '" ++ .ofList host ++
    "' must be a fully-qualified hostname (contain at least one dot)")
  Except.checkAll (validateLabel host) (Text.split '.' host)

/-! ## Ports and routes -/

structure MappedPort where
  hostPort : ℕ
  containerPort : ℕ
  protocol : Name

def MappedPort.tcp (p : MappedPort) : Bool := eqIgnoreAsciiCase p.protocol "tcp".toList

def sortAndDedupPorts (ports : List MappedPort) : List MappedPort :=
  (ports.insertionSort fun a b => a.hostPort < b.hostPort ∨
      (a.hostPort = b.hostPort ∧ a.protocol ≤ b.protocol)).destutter
    fun a b => ¬ (a.hostPort = b.hostPort ∧ a.protocol = b.protocol)

/-- A published port that was asked for, else the pinned one, else the first. -/
def resolveIngressPort (requested pinned : Option ℕ) (ports : List MappedPort) : Option ℕ :=
  ((requested.toList ++ pinned.toList).find? fun candidate =>
      ports.any fun p => p.hostPort = candidate ∧ p.tcp) <|>
    (ports.find? (·.tcp)).map (·.hostPort)

def resolveIngressSubdomain (requested existing : Option Name) : Option Name :=
  requested.bind nonempty <|> existing

/-- A route of Caddy to an app; without a subdomain it is the one of the path `/apps/<name>/`. -/
structure AppRoute where
  name : Name
  hostPort : ℕ
  subdomain : Option Name
  deriving DecidableEq

structure AppPort where
  containerPort : ℕ
  hostPort : Option ℕ
  protocol : Name

def AppPort.tcp (p : AppPort) : Bool := eqIgnoreAsciiCase p.protocol "tcp".toList

/-- What Docker is asked to publish: a later port replaces one of the same container port and
protocol. -/
def portBindings (ports : List AppPort) : List MappedPort :=
  ports.foldl (fun bindings p =>
    (bindings.filter fun b =>
      ¬ (b.containerPort = p.containerPort ∧ b.protocol = p.protocol.map Char.toLower)) ++
    [⟨p.hostPort.getD p.containerPort, p.containerPort, p.protocol.map Char.toLower⟩]) []

inductive Driver | bridge | macvlan | ipvlan

def Driver.lanIp : Driver → Bool
  | bridge => false
  | macvlan | ipvlan => true

structure InstallAppRequest where
  name : Name
  ports : List AppPort
  subdomain : Option Name
  network : Option Name
  registryCredentialIds : Option (List Name)

inductive Kind | simple | compose

structure App where
  name : Name
  kind : Kind
  ports : List MappedPort
  proxyDisabledReason : Option String

/-! ## Compose projects -/

inductive File
  | compose
  | env
  | nastyMeta
  /-- `.nasty-compose-…`, `.nasty-env-…` and `.nasty-deployment-transaction.….tmp`. -/
  | staged (name : Name)
  | other (name : Name)
  deriving DecidableEq

def File.isStaged : File → Bool
  | staged _ => true
  | _ => false

/-- What the marker of a deployment holds: the project before it. -/
structure Transaction where
  compose : Option String
  env : Option String
  nastyMeta : Option String
  registryCredentialIds : List Name

abbrev DirEntry := Option File

structure Credential where
  id : Name
  label : Name
  registry : Name
  username : Name

def validateCredentialIds (credentials : List Credential) (seen : List Name) :
    List Name → Except AppsError Unit
  | [] => .ok ()
  | id :: ids => do
    .refuse (id ∈ seen) (.invalidRegistryCredential
      ("credential '" ++ .ofList id ++ "' was selected more than once"))
    .refuse (id ∉ credentials.map (·.id)) (.invalidRegistryCredential
      ("credential '" ++ .ofList id ++ "' does not exist"))
    validateCredentialIds credentials (id :: seen) ids

def validateRegistryCredentialIds (credentials : List Credential) : List Name →
    Except AppsError Unit := validateCredentialIds credentials []

/-! ## Commands -/

inductive Finish | deployment | rollback

inductive Cmd
  /-- Wait for a lock of the service, and give it back. -/
  | lockApps
  | unlockApps
  | lockCompose
  | unlockCompose
  | requireReady
  | manifestExists (app : Name)
  | readManifest (app : Name)
  | editManifest (app : Name) (edit : Edit)
  | clearProxyDisabledReason (app : Name)
  | removeManifest (app : Name)
  | dirExists (app : Name)
  | createDir (app : Name)
  | readDir (app : Name)
  | removeDir (app : Name)
  | fileExists (app : Name) (file : File)
  | readFile (app : Name) (file : File)
  | writeFile (app : Name) (file : File) (content : String)
  | renameFile (app : Name) (old new : File)
  | removeFile (app : Name) (file : File)
  | readMarker (app : Name)
  /-- The temporary file is renamed to the marker. -/
  | writeMarker (app : Name) (staged : File) (transaction : Transaction)
  | removeMarker (app : Name) (finish : Finish)
  | loadCredentials
  | newId
  | containerExists (container : Name)
  | createContainer (container app : Name) (bindings : List MappedPort)
  | startContainer (container : Name)
  | removeContainer (container : Name)
  | detectCrash (container : Name)
  | mappedPort (container : Name) (containerPort : ℕ)
  | projectContainers (project : Name)
  | removeProject (project : Name)
  | composeUp (project : Name)
  | composeDown (project : Name)
  | listApps
  | usedHostPorts
  | resolveNetwork (network : Name)
  | findServer
  | listRoutes
  | putRoute (route : AppRoute)
  | removeRoute (app : Name)
  | probe (app : Name)
  /-- A step that changes nothing of the world: checks of the request, image pulls and tags, and
  syncs. -/
  | other (what : String) (args : List Name)

abbrev Cmd.Answer : Cmd → Type
  | lockApps | unlockApps | lockCompose | unlockCompose => Unit
  | requireReady | other .. => Except AppsError Unit
  | readManifest _ => Except String (Option Manifest)
  | manifestExists _ | dirExists _ | fileExists .. | containerExists _ => Bool
  | readDir _ => Except String (List DirEntry)
  | readFile .. => Except String (Option String)
  | readMarker _ => Except String (Option Transaction)
  | loadCredentials => Except String (List Credential)
  | newId => Name
  | detectCrash _ | probe _ => Option String
  | mappedPort .. => Option ℕ
  | projectContainers _ => Except String Bool
  | listApps => Except AppsError (List App)
  | usedHostPorts => List ℕ
  | resolveNetwork _ => Except AppsError Driver
  | listRoutes => Except String (List AppRoute)
  | _ => Except String Unit

abbrev Service := Proc Cmd Cmd.Answer AppsError

def run (c : Cmd) : Service c.Answer := perform c

end Nasty.Apps
