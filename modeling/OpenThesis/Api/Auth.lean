import OpenThesis.Api.Errors
import OpenThesis.Keyed.Core

/-!
# Authentication of the API

Every request below `/api/` passes `authMiddleware`, unless no key is listed.
-/

namespace OpenThesis.Api

open Keyed

structure APIKey where
  id : String
  name : String
  type : String
  shownPrefix : String
  lastFour : String
  createdAt : Nat
  expiresAt : Option Nat
  deriving DecidableEq

structure StoredAPIKey extends APIKey where
  hash : String
  deriving DecidableEq

/-- The key files. -/
structure KeyDir where
  files : Std.ExtTreeMap String (Option StoredAPIKey)
  listable : Bool := true

inductive FindError
  | notFound
  | unreadable
  deriving DecidableEq

namespace KeyDir

def fileName (id : String) : String :=
  id ++ ".json"

def listDir (dir : KeyDir) : Option (List (Option StoredAPIKey)) :=
  if dir.listable then
    some ((dir.files.toList.filter fun file => ".json".toList.isSuffixOf file.1.toList).map
      Prod.snd)
  else
    none

/-- The keys in the files that can be decoded; the order by creation time is not kept. -/
def listAPIKeys (dir : KeyDir) : Option (List APIKey) :=
  dir.listDir.map fun files => (files.filterMap id).map StoredAPIKey.toAPIKey

def findAPIKeyByHash (dir : KeyDir) (hash : String) : Except FindError StoredAPIKey :=
  match dir.listDir with
  | none => .error .unreadable
  | some files =>
    match (files.filterMap id).find? fun key => key.hash = hash with
    | some key => .ok key
    | none => .error .notFound

def getAPIKey (dir : KeyDir) (id : String) : Except FindError StoredAPIKey :=
  match dir.files[fileName id]? with
  | none => .error .notFound
  | some none => .error .unreadable
  | some (some key) => .ok key

def saveAPIKey (dir : KeyDir) (key : StoredAPIKey) : KeyDir :=
  { dir with files := dir.files.insert (fileName key.id) (some key) }

def deleteAPIKey (dir : KeyDir) (id : String) : KeyDir :=
  { dir with files := dir.files.erase (fileName id) }

end KeyDir

/-- What the middleware reads of a request. -/
structure Request where
  method : String
  path : String
  authorization : String
  now : Nat
  deriving DecidableEq

inductive Answer
  | error (error : APIError)
  | forward (key : Option APIKey)
  deriving DecidableEq

def cutPrefix (text start : String) : Option String :=
  (start.toList.isPrefixOf? text.toList).map String.ofList

def Request.isSafe (r : Request) : Bool :=
  r.method = "GET" || r.method = "HEAD" || r.method = "OPTIONS"

def APIKey.isExpired (key : APIKey) (now : Nat) : Bool :=
  match key.expiresAt with
  | some expires => expires < now
  | none => false

def authenticate (hashAPIKey : String → String) (dir : KeyDir) (r : Request) : Answer :=
  if r.authorization = "" then
    .error ⟨.authKeyMissing, "authentication required", "set Authorization: Bearer <key> header"⟩
  else
    match cutPrefix r.authorization "Bearer " with
    | none =>
      .error ⟨.authKeyInvalid, "invalid authorization format", "use Authorization: Bearer <key>"⟩
    | some rawKey =>
      match dir.findAPIKeyByHash (hashAPIKey rawKey) with
      | .error .notFound =>
        .error ⟨.authKeyInvalid, "invalid API key", "create a key at POST /api/v1/auth/keys"⟩
      | .error .unreadable => .error ⟨.internalError, "failed to verify key", ""⟩
      | .ok stored =>
        if stored.isExpired r.now then
          .error ⟨.authKeyExpired, "API key has expired",
            "create a new key at POST /api/v1/auth/keys"⟩
        else if stored.type = "readonly" ∧ ¬r.isSafe then
          .error ⟨.forbidden, "read-only key cannot modify resources",
            "use a live API key for write operations"⟩
        else
          .forward (some stored.toAPIKey)

def Request.isAPI (r : Request) : Bool :=
  (cutPrefix r.path "/api/").isSome

def authMiddleware (hashAPIKey : String → String) (dir : KeyDir) (r : Request) : Answer :=
  if r.isAPI then
    match dir.listAPIKeys with
    -- bootstrap mode
    | some [] => .forward none
    | _ => authenticate hashAPIKey dir r
  else
    .forward none

structure CreateBody where
  name : String
  type : String
  expiresAt : Option Nat

/-- The random bytes of the key, the random part of its identifier, the time, and whether the file
is written. -/
structure Drawn where
  random : Option String
  id : String
  now : Nat
  saved : Bool := true

def generateRawKey (keyType random : String) : String :=
  "otk_" ++ keyType ++ "_" ++ random

def validAPIKeyTypes : List String :=
  ["live", "readonly"]

def CreateBody.keyType (body : CreateBody) : String :=
  if body.type = "" ∨ body.type = "api" then "live" else body.type

def newAPIKey (hashAPIKey : String → String) (body : CreateBody) (drawn : Drawn)
    (rawKey : String) : StoredAPIKey where
  id := "otk_" ++ drawn.id
  name := body.name
  type := body.keyType
  shownPrefix := String.ofList (rawKey.toList.take 8)
  lastFour := String.ofList (rawKey.toList.drop (rawKey.length - 4))
  createdAt := drawn.now
  expiresAt := body.expiresAt
  hash := hashAPIKey rawKey

def handleCreateAPIKey (hashAPIKey : String → String) (body : Option CreateBody) (drawn : Drawn) :
    Except APIError (StoredAPIKey × String) :=
  match body with
  | none => .error ⟨.validationError, "invalid request body", ""⟩
  | some body =>
    if body.name = "" then
      .error ⟨.missingField, "name is required", ""⟩
    else if body.keyType ∉ validAPIKeyTypes then
      .error ⟨.invalidField, "invalid key type", "type must be one of: live, readonly"⟩
    else
      match drawn.random with
      | none => .error ⟨.internalError, "failed to generate key", ""⟩
      | some random =>
        if drawn.saved then
          let rawKey := generateRawKey body.keyType random
          .ok (newAPIKey hashAPIKey body drawn rawKey, rawKey)
        else
          .error ⟨.internalError, "failed to save key", ""⟩

def handleDeleteAPIKey (dir : KeyDir) (kid : String) (removed : Bool) : Except APIError KeyDir :=
  match dir.getAPIKey kid with
  | .error .notFound => .error ⟨.notFound, "key not found", ""⟩
  | .error .unreadable => .error ⟨.internalError, "failed to get key", ""⟩
  | .ok _ =>
    if removed then .ok (dir.deleteAPIKey kid)
    else .error ⟨.internalError, "failed to delete key", ""⟩

inductive KeyEvent
  | create (body : Option CreateBody) (drawn : Drawn)
  | delete (kid : String) (removed : Bool)
  /-- A file gets another content, which may be the one of a key. -/
  | corrupt (file : String) (content : Option StoredAPIKey)
  /-- The directory becomes listable or unlistable. -/
  | protect (listable : Bool)
  | request (r : Request)

section

variable (hashAPIKey : String → String)

namespace KeyDir

/-- A request that creates or deletes a key. -/
def step (dir : KeyDir) : KeyEvent → KeyDir
  | .create body drawn =>
    match handleCreateAPIKey hashAPIKey body drawn with
    | .ok (key, _) => dir.saveAPIKey key
    | .error _ => dir
  | .delete kid removed =>
    match handleDeleteAPIKey dir kid removed with
    | .ok dir => dir
    | .error _ => dir
  | .corrupt file content =>
    if file ∈ dir.files then { dir with files := dir.files.insert file content } else dir
  | .protect listable => { dir with listable }
  | .request _ => dir

def run (dir : KeyDir) (events : List KeyEvent) : KeyDir :=
  events.foldl (step hashAPIKey) dir

def keys (dir : KeyDir) : List StoredAPIKey :=
  (dir.listDir.getD []).filterMap id

end KeyDir

def KeyEvent.creates : KeyEvent → Bool
  | .create body drawn => (handleCreateAPIKey hashAPIKey body drawn).isOk
  | _ => false

/-- The request carries the token of a stored key that is not expired and permits the method. -/
def Permitted (dir : KeyDir) (r : Request) : Prop :=
  ∃ token key, r.authorization = "Bearer " ++ token ∧ key ∈ dir.keys ∧
    key.hash = hashAPIKey token ∧ key.isExpired r.now = false ∧
    (key.type = "readonly" → r.isSafe = true)

def Guarded (dir : KeyDir) (r : Request) : Prop :=
  ¬Permitted hashAPIKey dir r →
    ∃ error, authMiddleware hashAPIKey dir r = .error error ∧ 400 ≤ errorStatus error.code

theorem eq_append_of_cutPrefix {text start rest : String} (cut : cutPrefix text start = some rest) :
    text = start ++ rest := by
  obtain ⟨left, found, rfl⟩ := Option.map_eq_some_iff.mp cut
  have whole := List.append_eq_of_isPrefixOf?_eq_some found
  rw [← String.toList_inj, String.toList_append, String.toList_ofList, whole]

theorem mem_keys_of_find {dir : KeyDir} {hash : String} {key : StoredAPIKey}
    (found : dir.findAPIKeyByHash hash = .ok key) : key ∈ dir.keys ∧ key.hash = hash := by
  rw [KeyDir.findAPIKeyByHash] at found
  rw [KeyDir.keys]
  cases listed : dir.listDir with
  | none => simp [listed] at found
  | some files =>
    rw [listed] at found
    dsimp only at found
    cases result : (files.filterMap id).find? fun key => key.hash = hash with
    | none =>
      rw [result] at found
      cases found
    | some first =>
      rw [result] at found
      cases found
      exact ⟨List.mem_of_find?_eq_some result, by simpa using List.find?_some result⟩

theorem permitted_of_authenticate {dir : KeyDir} {r : Request} {key : Option APIKey}
    (forwarded : authenticate hashAPIKey dir r = .forward key) : Permitted hashAPIKey dir r := by
  revert forwarded
  fun_cases authenticate hashAPIKey dir r <;> intro forwarded <;> cases forwarded
  next token cut stored found fresh permitted =>
      obtain ⟨stored, same⟩ := mem_keys_of_find found
      refine ⟨token, _, eq_append_of_cutPrefix cut, stored, same, ?_, fun readonly => ?_⟩
      · simpa using fresh
      · by_contra modifies
        exact permitted ⟨readonly, modifies⟩

theorem keys_eq_nil_of_listed {dir : KeyDir} (listed : dir.listAPIKeys = some []) :
    dir.keys = [] := by
  obtain ⟨files, found, empty⟩ := Option.map_eq_some_iff.mp listed
  rw [KeyDir.keys, found]
  exact List.map_eq_nil_iff.mp empty

theorem guarded_iff_listed (dir : KeyDir) {r : Request} (api : r.isAPI = true) :
    Guarded hashAPIKey dir r ↔ dir.listAPIKeys ≠ some [] := by
  constructor
  · intro guarded listed
    have denied : ¬Permitted hashAPIKey dir r := by
      rintro ⟨token, key, -, stored, -⟩
      rw [keys_eq_nil_of_listed listed] at stored
      cases stored
    obtain ⟨error, answered, -⟩ := guarded denied
    simp [authMiddleware, api, listed] at answered
  · intro listed denied
    have checked : authMiddleware hashAPIKey dir r = authenticate hashAPIKey dir r := by
      rw [authMiddleware, if_pos api]
      split
      next empty => exact (listed empty).elim
      · rfl
    rw [checked]
    cases answered : authenticate hashAPIKey dir r with
    | forward key => exact (denied (permitted_of_authenticate hashAPIKey answered)).elim
    | error error => exact ⟨error, rfl, le_errorStatus error.code⟩

/-- Authentication stays on exactly if, at every request after the first key has been created, some
key file can be read or the directory cannot be listed. -/
theorem guarded_iff (dir : KeyDir) (events : List KeyEvent) :
    (∀ before r, before ++ [.request r] <+: events → before.any (KeyEvent.creates hashAPIKey) →
      r.isAPI → Guarded hashAPIKey (dir.run hashAPIKey before) r) ↔
    ∀ before r, before ++ [.request r] <+: events → before.any (KeyEvent.creates hashAPIKey) →
      r.isAPI → (dir.run hashAPIKey before).listAPIKeys ≠ some [] := by
  constructor
  · intro guarded before r inside created api
    exact (guarded_iff_listed hashAPIKey _ api).mp (guarded before r inside created api)
  · intro listed before r inside created api
    exact (guarded_iff_listed hashAPIKey _ api).mpr (listed before r inside created api)

def keyDeleted : List KeyEvent :=
  [.create (some ⟨"ci", "live", none⟩) ⟨some "c2VjcmV0", "5f1d", 0, true⟩,
    .delete "otk_5f1d" true,
    .request ⟨"POST", "/api/v1/projects", "", 1⟩]

theorem let_in_after_delete :
    (keyDeleted.take 2).any (KeyEvent.creates id) = true ∧
      authMiddleware id (KeyDir.run id ⟨∅, true⟩ (keyDeleted.take 2))
        ⟨"POST", "/api/v1/projects", "", 1⟩ = .forward none ∧
      ¬∀ before r, before ++ [.request r] <+: keyDeleted →
        before.any (KeyEvent.creates id) → r.isAPI →
        Guarded id (KeyDir.run id ⟨∅, true⟩ before) r := by
  have forwarded : authMiddleware id (KeyDir.run id ⟨∅, true⟩ (keyDeleted.take 2))
      ⟨"POST", "/api/v1/projects", "", 1⟩ = .forward none := by
    decide +kernel
  refine ⟨by decide +kernel, forwarded, fun enforced => ?_⟩
  have guarded := enforced (keyDeleted.take 2) _ (List.prefix_refl _) (by decide +kernel)
    (by decide +kernel)
  have empty : (KeyDir.run id ⟨∅, true⟩ (keyDeleted.take 2)).keys = [] := by
    decide +kernel
  have denied : ¬Permitted id (KeyDir.run id ⟨∅, true⟩ (keyDeleted.take 2))
      ⟨"POST", "/api/v1/projects", "", 1⟩ := by
    rintro ⟨token, key, -, stored, -⟩
    rw [empty] at stored
    cases stored
  obtain ⟨error, answered, -⟩ := guarded denied
  rw [forwarded] at answered
  cases answered

end

end OpenThesis.Api
