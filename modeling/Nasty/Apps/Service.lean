import Nasty.Apps.Commands

/-!
# Installing, removing and routing apps

`AppsService` for simple apps and the ingress of all apps. An error of a step that the engine only
logs is dropped.
-/

namespace Nasty.Apps

open Proc

/-! ## Sidecars -/

/-- A sidecar for the readers that take an unreadable one for a missing one. -/
def loadManifest (name : Name) : Service (Option Manifest) := do
  let manifest ← run (.readManifest name)
  return match manifest with
    | .ok manifest => manifest
    | .error _ => none

def Manifest.subdomain (m : Manifest) : Option Name := m.ingressSubdomain.bind nonempty

def loadIngressSubdomain (name : Name) : Service (Option Name) := do
  let manifest ← loadManifest name
  return manifest.bind Manifest.subdomain

def loadIngressHostPort (name : Name) : Service (Option ℕ) := do
  let manifest ← loadManifest name
  return manifest.bind (·.ingressHostPort)

def loadRegistryCredentialIds (name : Name) : Service (List Name) := do
  let manifest ← loadManifest name
  return manifest.elim [] (·.registryCredentialIds)

def loadIngressPreferencesStrict (name : Name) : Service (Option Name × Option ℕ) := do
  let manifest ← orFail (fun e => .commandFailed ("manifest read failed: " ++ e))
    (← run (.readManifest name))
  return (manifest.bind Manifest.subdomain, manifest.bind (·.ingressHostPort))

/-! ## Ingress -/

def ingressList : Service (List AppRoute) := do
  orFail .commandFailed (← run .listRoutes)

/-- The server is looked up before the old route is removed, and the new one is put in front. -/
def setAppRoute (route : AppRoute) : Service Unit := do
  orFail .commandFailed (← run .findServer)
  let _ ← run (.removeRoute route.name)
  orFail .commandFailed (← run (.putRoute route))

structure SetIngressRequest where
  name : Name
  hostPort : ℕ
  subdomain : Option Name

def checkSubdomain (subdomain : Option Name) : Except AppsError Unit :=
  Except.checkAll (fun host => (validateSubdomain host).mapError .commandFailed) subdomain.toList

def ingressSet (req : SetIngressRequest) : Service AppRoute := do
  ofExcept (validateAppName req.name)
  let route : AppRoute := ⟨req.name, req.hostPort, req.subdomain.bind nonempty⟩
  ofExcept (checkSubdomain route.subdomain)
  setAppRoute route
  let _ ← run (.editManifest req.name (.ingressSubdomain route.subdomain))
  let _ ← run (.editManifest req.name (.ingressHostPort (some req.hostPort)))
  onlyIf route.subdomain.isSome do
    let _ ← run (.clearProxyDisabledReason req.name)
  return route

def ingressRemove (name : Name) : Service Unit := do
  ofExcept (validateAppName name)
  let existing ← ingressList
  refuse (name ∉ existing.map (·.name)) (.appNotFound name)
  orFail .commandFailed (← run (.removeRoute name))
  let _ ← run (.editManifest name (.ingressSubdomain none))
  let _ ← run (.editManifest name (.ingressHostPort none))

def get (name : Name) : Service App := do
  ofExcept (validateAppName name)
  let apps ← ofExcept (← run .listApps)
  ofExcept ((apps.find? (·.name = name)).elim (.error (.appNotFound name)) .ok)

def dropRoute (name : Name) : Service (Option AppRoute) := do
  orFail .commandFailed (← run (.removeRoute name))
  return none

def retarget (route : AppRoute) : Service (Option AppRoute) := do
  let existing ← ingressList
  if existing.find? (·.name = route.name) = some route then return some route
  else some <$> ingressSet ⟨route.name, route.hostPort, route.subdomain⟩

def refreshUpdated (name : Name) (requested : Option ℕ) (app : App) :
    Service (Option AppRoute) := do
  let preferences ← loadIngressPreferencesStrict name
  match resolveIngressPort requested preferences.2 app.ports with
  | none => dropRoute name
  | some port => retarget ⟨name, port, preferences.1⟩

/-- A new app does not inherit the ingress of an older one of the same name. -/
def refreshInstalled (name : Name) (requested : Option ℕ) (app : App) :
    Service (Option AppRoute) := do
  orFail .commandFailed (← run (.editManifest name (.ingressSubdomain none)))
  orFail .commandFailed (← run (.editManifest name (.ingressHostPort none)))
  match resolveIngressPort requested none app.ports with
  | none => dropRoute name
  | some port => some <$> ingressSet ⟨name, port, none⟩

def refreshComposeIngressAfterDeploy (name : Name) (requested : Option ℕ) (isUpdate : Bool) :
    Service (Option AppRoute) := do
  let app ← get name
  if isUpdate then refreshUpdated name requested app else refreshInstalled name requested app

/-! ## New names -/

def ensureNewAppNameAvailable (name : Name) : Service Unit := do
  ofExcept (validateNewAppName name)
  let project ← orFail .dockerFailed (← run (.projectContainers name))
  let dir ← run (.dirExists name)
  let manifest ← run (.manifestExists name)
  let container ← run (.containerExists (containerName name))
  refuse (dir ∨ manifest ∨ container ∨ project) (.appAlreadyExists name)

/-! ## Removal -/

def removeEntry (name : Name) : DirEntry → Service Unit
  | some file => do orFail .io (← run (.removeFile name file))
  | none => do orFail .io (← run (.removeMarker name .rollback))

def removeDirAll (name : Name) : Service Unit := do
  let entries ← orFail .io (← run (.readDir name))
  each entries (removeEntry name)
  orFail .io (← run (.removeDir name))

def composeRemove (name : Name) : Service Unit :=
  holding .lockCompose .unlockCompose do
    ofExcept (validateAppName name)
    ofExcept (← run .requireReady)
    let found ← run (.fileExists name .compose)
    refuse (¬ found) (.appNotFound name)
    orFail .dockerFailed (← run (.composeDown name))
    ignore (removeDirAll name)
    let _ ← run (.removeManifest name)
    ignore (ingressRemove name)

def removeSimple (name : Name) : Service Unit := do
  let found ← run (.containerExists (containerName name))
  refuse (¬ found) (.appNotFound name)
  orFail .dockerFailed (← run (.removeContainer (containerName name)))
  ignore (ingressRemove name)
  let _ ← run (.removeManifest name)

def remove (name : Name) : Service Unit := do
  ofExcept (validateAppName name)
  ofExcept (← run .requireReady)
  let compose ← run (.fileExists name .compose)
  if compose then composeRemove name else removeSimple name

/-! ## Installation of simple apps -/

def validateBindings (name : Name) (ids : List Name) : Service Unit := do
  let credentials ← orFail .commandFailed (← run .loadCredentials)
  ofExcept (validateRegistryCredentialIds credentials ids)
  ofExcept (← run (.other "validate_registry_bindings" (name :: ids)))

def isHostNetwork (network : Option Name) : Bool := network = some "host".toList

def networkDriver (network : Option Name) : Service Driver :=
  match network with
  | some (c :: cs) => if c :: cs = "host".toList then pure .bridge else do
      ofExcept (← run (.resolveNetwork (c :: cs)))
  | _ => pure .bridge

def lanIpReason : String :=
  "macvlan/ipvlan apps get their own LAN IP and cannot also publish host ports; " ++
    "remove host-port mappings or choose a bridge network"

/-- The bindings, unless a host port is taken; an app on the host network has none. -/
def freeBindings (req : InstallAppRequest) (used : List ℕ) :
    Except AppsError (List MappedPort) :=
  if isHostNetwork req.network then .ok []
  else match req.ports.find? fun p => p.hostPort.getD p.containerPort ∈ used with
    | some p => .error (.dockerFailed ("host port " ++
        toString (p.hostPort.getD p.containerPort) ++ " is already in use by another app"))
    | none => .ok (portBindings req.ports)

def orRemoveContainer (container : Name) (r : Except AppsError Unit) : Service Unit :=
  match r with
  | .ok _ => pure ()
  | .error e => do
    let _ ← run (.removeContainer container)
    fail e

def crashError (reason : Option String) : Except AppsError Unit :=
  match reason with
  | none => .ok ()
  | some reason => .error (.dockerFailed ("container exited shortly after start: " ++ reason))

/-- The base fields of the sidecar, after the credentials were checked once more. -/
def saveAppManifestBase (name : Name) (ids : List Name) : Service Unit := do
  let credentials ← orFail .commandFailed (← run .loadCredentials)
  ofExcept (validateRegistryCredentialIds credentials ids)
  orFail .commandFailed (← run (.editManifest name (.base ids)))

def startApp (req : InstallAppRequest) (bindings : List MappedPort) (ids : List Name) :
    Service Unit := do
  let container := containerName req.name
  orFail .dockerFailed (← run (.createContainer container req.name bindings))
  orFail .dockerFailed (← run (.startContainer container))
  let crash ← run (.detectCrash container)
  orRemoveContainer container (crashError crash)
  let saved ← attempt (saveAppManifestBase req.name ids)
  orRemoveContainer container saved

/-- A path route that serves a blank page goes again, and the sidecar says why. -/
def probeRoute (name : Name) (chose : Bool) (result : Except AppsError AppRoute) :
    Service Unit :=
  match result, chose with
  | .ok _, false => do
    let broken ← run (.probe name)
    match broken with
    | none => pure ()
    | some reason =>
      ignore (ingressRemove name)
      let _ ← run (.editManifest name (.proxyDisabledReason reason))
  | _, _ => pure ()

/-- The upstream of a new route: the port pinned before, else the first TCP port. -/
def upstreamPort (container : Name) (pinned : Option ℕ) (first : AppPort) : Service ℕ :=
  match pinned, first.hostPort with
  | some port, _ => pure port
  | none, some port => pure port
  | none, none => do
    let mapped ← run (.mappedPort container first.containerPort)
    return mapped.getD first.containerPort

def autoIngress (req : InstallAppRequest) (driver : Driver) (subdomain : Option Name)
    (pinned : Option ℕ) : Service Unit :=
  if driver.lanIp ∨ isHostNetwork req.network then pure ()
  else match req.ports.find? (·.tcp) with
    | none => pure ()
    | some first => do
      let hostPort ← upstreamPort (containerName req.name) pinned first
      let chosen := resolveIngressSubdomain req.subdomain subdomain
      let result ← attempt (ingressSet ⟨req.name, hostPort, chosen⟩)
      probeRoute req.name chosen.isSome result

def requestedCredentialIds (req : InstallAppRequest) (requireNewName : Bool) :
    Service (List Name) :=
  match req.registryCredentialIds, requireNewName with
  | some ids, _ => pure ids
  | none, true => pure []
  | none, false => loadRegistryCredentialIds req.name

def installInner (req : InstallAppRequest) (requireNewName : Bool) : Service App := do
  let ids ← requestedCredentialIds req requireNewName
  ofExcept (if requireNewName then validateNewAppName req.name else validateAppName req.name)
  validateBindings req.name ids
  ofExcept (← run .requireReady)
  let priorSubdomain ← loadIngressSubdomain req.name
  let priorIngressPort ← loadIngressHostPort req.name
  let found ← run (.containerExists (containerName req.name))
  refuse found (.appAlreadyExists req.name)
  let driver ← networkDriver req.network
  refuse (driver.lanIp ∧ req.ports ≠ []) (.invalidNetwork lanIpReason)
  ofExcept (← run (.other "validate_simple_volumes" [req.name]))
  ofExcept (← run (.other "pull_image" [req.name]))
  let bindings ← ofExcept (freeBindings req (← run .usedHostPorts))
  startApp req bindings ids
  autoIngress req driver priorSubdomain priorIngressPort
  get req.name

def install (req : InstallAppRequest) : Service App :=
  holding .lockApps .unlockApps (installInner req true)

end Nasty.Apps
