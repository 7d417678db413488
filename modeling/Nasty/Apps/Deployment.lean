import Nasty.Apps.Service

/-!
# Deployment of compose projects

A deployment writes the project's files one after the other. Before the first of them it writes a
marker that holds the old ones, and it removes the marker last. `rollback` writes back what the
marker holds.
-/

namespace Nasty.Apps

open Proc

def setAppRegistryCredentialIds (name : Name) (ids : List Name) : Service Unit := do
  ofExcept (validateAppName name)
  let credentials ← orFail .commandFailed (← run .loadCredentials)
  ofExcept (validateRegistryCredentialIds credentials ids)
  orFail .io (← run (.editManifest name (.registryCredentialIds ids)))

/-! ## The transaction of a deployment -/

def syncComposeDeploymentFiles (name : Name) : Service Unit := do
  ofExcept (← run (.other "sync" [name]))

def finishComposeDeploymentTransaction (name : Name) (finish : Finish) : Service Unit := do
  ofExcept (validateAppName name)
  syncComposeDeploymentFiles name
  let entries ← orFail .io (← run (.readDir name))
  each (entries.filter fun e => e.any File.isStaged) (removeEntry name)
  syncComposeDeploymentFiles name
  orFail .io (← run (.removeMarker name finish))
  syncComposeDeploymentFiles name

/-- A file that was not there before is removed; an error is dropped. -/
def restoreFile (name : Name) (file : File) (content : Option String) : Service Unit :=
  match content with
  | some content => do orFail .io (← run (.writeFile name file content))
  | none => do let _ ← run (.removeFile name file)

def discardProject (name : Name) : Service Unit := do
  orFail .io (← run (.removeManifest name))
  removeDirAll name
  syncComposeDeploymentFiles name

/-- The containers of a project that was there before, then the marker. -/
def reviveProject (name : Name) (reconcileDocker : Bool) : Service Unit := do
  ofExcept (← run (.other "docker image tag" [name]))
  onlyIf reconcileDocker do orFail .dockerFailed (← run (.composeUp name))
  finishComposeDeploymentTransaction name .rollback

def rollbackTransaction (name : Name) (reconcileDocker : Bool) (t : Transaction) :
    Service Unit := do
  onlyIf (reconcileDocker ∧ t.compose = none) do
    orFail .dockerFailed (← run (.removeProject name))
  restoreFile name .compose t.compose
  restoreFile name .env t.env
  restoreFile name .nastyMeta t.nastyMeta
  setAppRegistryCredentialIds name t.registryCredentialIds
  let found ← run (.fileExists name .compose)
  if found then reviveProject name reconcileDocker else discardProject name

def rollbackComposeDeploymentTransaction (name : Name) (reconcileDocker : Bool) :
    Service Unit := do
  let marker ← orFail .io (← run (.readMarker name))
  match marker with
  | none => pure ()
  | some t => rollbackTransaction name reconcileDocker t

/-- The marker is written to a temporary file, which is renamed. -/
def writeTransaction (name : Name) (t : Transaction) : Service Unit := do
  let id ← run .newId
  let result ← attempt (do
    orFail AppsError.io (← run (.writeFile name (.staged id) ""))
    orFail AppsError.io (← run (.writeMarker name (.staged id) t)))
  onlyIf (¬ result.isOk) do let _ ← run (.removeFile name (.staged id))
  ofExcept result

def rollbackStale (name : Name) (marker : Option Transaction) : Service Unit :=
  match marker with
  | none => pure ()
  | some t => do
    rollbackTransaction name true t
    orFail .io (← run (.createDir name))

def beginComposeDeploymentTransaction (name : Name) : Service Unit := do
  ofExcept (validateAppName name)
  orFail .io (← run (.createDir name))
  rollbackStale name (← orFail .io (← run (.readMarker name)))
  let _ ← orFail .dockerFailed (← run (.projectContainers name))
  let compose ← orFail .io (← run (.readFile name .compose))
  let env ← orFail .io (← run (.readFile name .env))
  let nastyMeta ← orFail .io (← run (.readFile name .nastyMeta))
  let manifest ← orFail .io (← run (.readManifest name))
  writeTransaction name ⟨compose, env, nastyMeta, manifest.elim [] (·.registryCredentialIds)⟩

/-! ## Deployment -/

structure ComposeRequest where
  name : Name
  compose : String
  env : String
  allowUnsafe : Bool
  registryCredentialIds : Option (List Name)
  ingressHostPort : Option ℕ

/-- The staged file takes the place of the canonical one, which is kept as a backup; was there
one? -/
def installStagedFile (name : Name) (staged canonical backup : File) : Service Bool := do
  let found ← run (.fileExists name canonical)
  onlyIf found do orFail .io (← run (.renameFile name canonical backup))
  let installed ← run (.renameFile name staged canonical)
  onlyIf (found ∧ ¬ installed.isOk) do let _ ← run (.renameFile name backup canonical)
  orFail .io installed
  return found

/-- The environment file of an update is put back before the rollback. -/
def abortComposeStage (name : Name) (staged backup : File) (isUpdate hadEnv : Bool) :
    Service Unit :=
  onlyIf isUpdate do
    let _ ← run (.removeFile name .env)
    onlyIf hadEnv do let _ ← run (.renameFile name backup .env)
    let _ ← run (.removeFile name staged)

def orRollback {α : Type} (name : Name) (reconcileDocker : Bool) (abort : Service Unit)
    (part : Service α) : Service α := do
  let result ← attempt part
  match result with
  | .ok a => return a
  | .error e =>
    abort
    ignore (rollbackComposeDeploymentTransaction name reconcileDocker)
    fail e

/-- The staged project is valid, and its images are known, allowed and pulled. -/
def checkStaged (name : Name) (ids : List Name) : Service Unit := do
  ofExcept (← run (.other "docker compose config" [name]))
  ofExcept (← run (.other "compose_image_plan" [name]))
  validateBindings name ids
  ofExcept (← run (.other "pull_image" [name]))

def writeAppMeta (name : Name) (allowUnsafe : Bool) : Service Unit :=
  if allowUnsafe then do
    orFail .io (← run (.writeFile name .nastyMeta "\x7b\"allow_unsafe\":true\x7d"))
  else do let _ ← run (.removeFile name .nastyMeta)

def deployTransaction (req : ComposeRequest) (ids : List Name) (isUpdate : Bool) (id : Name) :
    Service Unit := do
  let stagedCompose := File.staged (id ++ ".yml".toList)
  let stagedEnv := File.staged (id ++ ".env".toList)
  let composeBackup := File.staged (id ++ ".yml.backup".toList)
  let envBackup := File.staged (id ++ ".env.backup".toList)
  let hadEnv ← orRollback req.name false (pure ()) do
    orFail .io (← run (.writeFile req.name stagedCompose req.compose))
    orFail .io (← run (.writeFile req.name stagedEnv req.env))
    installStagedFile req.name stagedEnv .env envBackup
  let abort := abortComposeStage req.name stagedCompose envBackup isUpdate hadEnv
  orRollback req.name false abort (checkStaged req.name ids)
  let previous ← loadRegistryCredentialIds req.name
  orRollback req.name false abort (setAppRegistryCredentialIds req.name ids)
  let _ ← orRollback req.name false
    (do ignore (setAppRegistryCredentialIds req.name previous); abort)
    (installStagedFile req.name stagedCompose .compose composeBackup)
  orRollback req.name false (pure ()) (syncComposeDeploymentFiles req.name)
  orRollback req.name true (pure ()) do
    orFail .dockerFailed (← run (.composeUp req.name))
    writeAppMeta req.name req.allowUnsafe
  finishComposeDeploymentTransaction req.name .deployment
  let _ ← run (.removeFile req.name composeBackup)
  let _ ← run (.removeFile req.name envBackup)

def orDiscard (name : Name) (isUpdate : Bool) (begin : Service Unit) : Service Unit := do
  let result ← attempt begin
  match result with
  | .ok _ => pure ()
  | .error e =>
    onlyIf (¬ isUpdate) (ignore (removeDirAll name))
    fail e

def composeCredentialIds (req : ComposeRequest) (isUpdate : Bool) : Service (List Name) :=
  match req.registryCredentialIds, isUpdate with
  | some ids, _ => pure ids
  | none, true => loadRegistryCredentialIds req.name
  | none, false => pure []

def checkDeployment (req : ComposeRequest) (isUpdate dir : Bool) : Service Unit := do
  refuse (dir ∧ ¬ isUpdate)
    (.commandFailed "app state directory already exists without a compose file")
  onlyIf (¬ isUpdate) (ensureNewAppNameAvailable req.name)

def deployProject (req : ComposeRequest) (isUpdate : Bool) : Service Unit := do
  let ids ← composeCredentialIds req isUpdate
  let credentials ← orFail .commandFailed (← run .loadCredentials)
  ofExcept (validateRegistryCredentialIds credentials ids)
  let attempt ← run .newId
  orFail .io (← run (.createDir req.name))
  orDiscard req.name isUpdate (beginComposeDeploymentTransaction req.name)
  deployTransaction req ids isUpdate attempt
  ignore (refreshComposeIngressAfterDeploy req.name req.ingressHostPort isUpdate)

def deployCompose (req : ComposeRequest) : Service Unit :=
  holding .lockApps .unlockApps <| holding .lockCompose .unlockCompose do
    ofExcept (← run (.other "validate_compose" [req.name]))
    let isUpdate ← run (.fileExists req.name .compose)
    let dir ← run (.dirExists req.name)
    checkDeployment req isUpdate dir
    deployProject req isUpdate

end Nasty.Apps
