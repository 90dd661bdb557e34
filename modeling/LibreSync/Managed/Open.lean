import LibreSync.Managed.Pairing

/-! `Session::open`: the checks of a configuration, the first envelope and the recovered one. -/

namespace LibreSync.Managed

/-- The checks of the configuration. The display name is the one that `open` settled on. -/
def SessionConfig.validate (config : SessionConfig) : Except Error Unit :=
  match config.metadata.validate with
  | .error error => .error error
  | .ok () =>
      if config.adapters.size ≠ config.metadata.manifest.adapters.length ∨
          config.metadata.manifest.adapters.any fun descriptor =>
            (config.adapters[descriptor.id]?).all fun adapter =>
              adapter.descriptor ≠ descriptor then
        failCode .invalidConfiguration "registered adapters differ from manifest"
      else if config.recoveryRetention < 1 ∨ 100 < config.recoveryRetention then
        failCode .invalidConfiguration "invalid managed scheduling intervals"
      else if config.metadata.manifest.adapters.any fun descriptor =>
          !descriptor.transactional then
        fail "managed adapter must support transactions"
      else .ok ()

structure RandomId where
  text : String
  sized : text.utf8ByteSize = 32
deriving DecidableEq

theorem RandomId.ne_empty (id : RandomId) : id.text ≠ "" := by
  intro empty
  have sized := id.sized
  rw [empty] at sized
  simp at sized

/-- What stays fixed over the life of a state directory: the configuration it is opened with and
the identity, storage key and epoch it was created with. -/
structure Installation (Proof : Type) where
  inner : Inner Proof
  identity : Identity
  automaticName : Bool
  groupKey : AppKey
  epoch : RandomId
  valid : inner.config.validate = .ok ()
  fits : inner.sizes.complete [] ≤ maxBatchBytes

section Operations

variable {Proof : Type}

def Installation.created (installation : Installation Proof) : Contents Proof where
  version := 1
  recovery := []
  identity := installation.identity
  metadata := installation.inner.config.metadata
  groupKey := installation.groupKey.bytes
  epoch := installation.epoch.text
  revision := 0
  localRevision := 0
  sequences := ∅
  origins := ∅
  peers := ∅
  enrollments := ∅
  preparations := ∅
  phase := .stopped
  generation := 0
  records := ∅

def recovered (inner : Inner Proof) (file : Envelope Proof) : Except Error (Contents Proof) :=
  match file.prepared with
  | none => .ok file.toContents
  | some prepared =>
      (recoverTransaction inner file.toContents prepared).map fun () => prepared.target.toContents

def Contents.named (e : Contents Proof) (displayName : String) : Contents Proof :=
  { e with metadata := { e.metadata with displayName } }

def Installation.launch (installation : Installation Proof) (e : Contents Proof) :
    Except Error (Contents Proof) :=
  let config := installation.inner.config
  let e := if installation.automaticName then e else e.named config.metadata.displayName
  match e.metadata.validate with
  | .error error => .error error
  | .ok () =>
      match Limits.state installation.inner.sizes e with
      | .error error => .error error
      | .ok () =>
          (checkedNext e.generation "generation exhausted").map fun generation =>
            { e with phase := .stopped, generation }

/-- `open` of an existing file, before it saves the envelope. -/
def Installation.load (installation : Installation Proof) (file : Envelope Proof) :
    Except Error (Contents Proof) :=
  let config := installation.inner.config
  if file.version ≠ 1 then fail "unsupported session journal version"
  else if file.identity ≠ installation.identity ∨
      ¬file.metadata.manifest.compatibleWith config.metadata.manifest then
    fail "session identity or manifest changed"
  else match recovered installation.inner file with
    | .error error => .error error
    | .ok e => installation.launch e

/-- A reopened session. A failed save leaves the file or its replacement. -/
def Installation.reopen (installation : Installation Proof) (outcome : SaveOutcome)
    (file : Envelope Proof) : Except Error (Session Proof) × Envelope Proof :=
  match installation.load file with
  | .error error => (.error error, file)
  | .ok e =>
      match outcome with
      | .saved => (.ok (.opened e), e.committed)
      | .failed renamed error => (.error error, if renamed then e.committed else file)

end Operations

end LibreSync.Managed
