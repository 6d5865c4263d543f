import Mathlib.Tactic.SplitIfs
import Cox.Tls.Context

/-!
# Reloading certificates

`reload` makes up to three changes to the context that is in use, and returns when one of
them fails. What was changed before stays: a new certificate is installed even if its key
cannot be, and with it the old key goes. And trust anchors are only ever added, so that those
which a new CA file no longer has stay in effect. What a reload that succeeds puts into effect
is read from the paths of the last calls that did not throw.
-/
namespace Cox.Tls.TlsContext

open Cox.Lib Machine Option

variable {σ Cert Key Anchor : Type} (ssl : OpenSsl σ Cert Key Anchor) (fits : Cert → Key → Bool)

/-- The certificate, key and trust anchors are those of the files. Without a CA file the
anchors are not concerned. -/
structure FromFiles (c : TlsContext σ) (m m' : Material Cert Key Anchor)
    (files : Files Cert Key Anchor) : Prop where
  certificate : m'.certificate = files.certificate c.certPath
  privateKey : m'.privateKey = files.privateKey c.keyPath
  anchors : c.caPath ≠ "" → ∃ anchors ∈ files.anchors c.caPath,
    ∀ anchor, anchor ∈ m'.trust ↔ anchor ∈ anchors
  others : c.caPath = "" → m'.trust = m.trust

/-- A reload that fails changes nothing, and one that succeeds puts into effect what is in the
files. -/
def ReloadsAtOnce (c : TlsContext σ) (files : Files Cert Key Anchor) : Prop :=
  ((c.reload ssl files).1 = false →
      ssl.inEffect (c.reload ssl files).2.ctx = ssl.inEffect c.ctx) ∧
    ((c.reload ssl files).1 = true →
      FromFiles c (ssl.inEffect c.ctx) (ssl.inEffect (c.reload ssl files).2.ctx) files)

/-- The private key file has a key that fits the certificate. -/
def keyFor (c : TlsContext σ) (files : Files Cert Key Anchor) (cert : Cert) : Option Key :=
  (files.privateKey c.keyPath).filter (fits cert)

/-- What is in the files can be put into effect as a whole, or it is in effect already. -/
def InStep (c : TlsContext σ) (m : Material Cert Key Anchor) (files : Files Cert Key Anchor) : Prop :=
  c.certPath ≠ "" → c.keyPath ≠ "" → ∀ cert ∈ files.certificate c.certPath,
    match c.keyFor fits files cert with
    | none => m.certificate = some cert ∧ ∀ key ∈ m.privateKey, fits cert key = true
    | some key => c.caPath ≠ "" →
      match files.anchors c.caPath with
      | none => m.certificate = some cert ∧ m.privateKey = some key
      | some anchors => ∀ anchor ∈ m.trust, anchor ∈ anchors

/-! ### What a reload does -/

section Reload

variable {ssl fits} {c : TlsContext σ} {files : Files Cert Key Anchor}

theorem keyFor_fits {cert : Cert} {key : Key} (found : c.keyFor fits files cert = some key) :
    files.privateKey c.keyPath = some key ∧ fits cert key = true := by
  obtain ⟨read, fit⟩ := filter_eq_some_iff.mp found
  exact ⟨read, fit⟩

/-- What a reload returns, and what is in effect after it, if the paths are set: it depends on the
certificate, on the key and on the trust anchors. -/
def reloaded (fits : Cert → Key → Bool) (c : TlsContext σ) (m : Material Cert Key Anchor)
    (files : Files Cert Key Anchor) : Bool × Material Cert Key Anchor :=
  match files.certificate c.certPath with
  | none => (false, m)
  | some cert =>
    match c.keyFor fits files cert with
    | none => (false, m.withCertificate fits cert)
    | some key =>
      let m := (m.withCertificate fits cert).withKey key
      if c.caPath = "" then (true, m)
      else
        match files.anchors c.caPath with
        | none => (false, m)
        | some anchors => (true, m.withAnchors anchors)

theorem usePrivateKeyFile_filter (documented : ssl.Documented fits) (clean : ssl.FailsClean) (s : σ)
    (cert : Cert) (installed : (ssl.inEffect s).certificate = some cert) (file : Option Key) :
    match file.filter (fits cert) with
    | none => (ssl.usePrivateKeyFile s file).1 = false ∧
        ssl.inEffect (ssl.usePrivateKeyFile s file).2 = ssl.inEffect s
    | some key => (ssl.usePrivateKeyFile s file).1 = true ∧
        ssl.checkPrivateKey (ssl.usePrivateKeyFile s file).2 = true ∧
        ssl.inEffect (ssl.usePrivateKeyFile s file).2 = (ssl.inEffect s).withKey key := by
  cases file with
  | none => exact ⟨documented.noKey s, clean.privateKey s none (documented.noKey s)⟩
  | some key =>
    cases fit : fits cert key with
    | false =>
      have failed := documented.otherKey s key (by rw [installed]; exact fit)
      simp only [Option.filter, fit, Bool.false_eq_true, if_false]
      exact ⟨failed, clean.privateKey s _ failed⟩
    | true =>
      obtain ⟨takes, effect⟩ := documented.privateKey s key (by rw [installed]; exact fit)
      simp only [Option.filter, fit, if_true]
      refine ⟨takes, ?_, effect⟩
      rw [documented.check, effect, Material.paired, Material.withKey, installed]
      exact fit

theorem reload_eq (files : Files Cert Key Anchor) (documented : ssl.Documented fits)
    (clean : ssl.FailsClean) (hasCert : c.certPath ≠ "") (hasKey : c.keyPath ≠ "") :
    ((c.reload ssl files).1, ssl.inEffect (c.reload ssl files).2.ctx) =
      reloaded fits c (ssl.inEffect c.ctx) files := by
  unfold reload reloaded
  rw [if_neg (not_or.mpr ⟨hasCert, hasKey⟩)]
  dsimp only
  cases read : files.certificate c.certPath with
  | none =>
    have failed := documented.noCertificate c.ctx
    rw [if_pos failed]
    exact congrArg (false, ·) (clean.certificate c.ctx none failed)
  | some cert =>
    obtain ⟨installs, effect⟩ := documented.certificate c.ctx cert
    have keys := usePrivateKeyFile_filter documented clean
      (ssl.useCertificateChainFile c.ctx (some cert)).2 cert (by rw [effect]; rfl)
      (files.privateKey c.keyPath)
    rw [← keyFor] at keys
    rw [if_neg (by simp [installs])]
    dsimp only
    cases found : c.keyFor fits files cert with
    -- the key is refused, and the new certificate stays
    | none =>
      simp only [found] at keys
      rw [if_pos keys.1]
      exact congrArg (false, ·) (keys.2.trans effect)
    | some key =>
      simp only [found] at keys
      obtain ⟨takes, checked, effect'⟩ := keys
      rw [effect] at effect'
      rw [if_neg (by simp [takes]), if_neg (by simp [checked])]
      dsimp only
      by_cases noCa : c.caPath = ""
      · rw [if_pos noCa, if_pos noCa]
        exact congrArg (true, ·) effect'
      · rw [if_neg noCa, if_neg noCa]
        cases readCa : files.anchors c.caPath with
        -- the CA file is refused, and the new certificate and key stay
        | none =>
          have failed := documented.noAnchors
            (ssl.usePrivateKeyFile (ssl.useCertificateChainFile c.ctx (some cert)).2
              (files.privateKey c.keyPath)).2
          rw [if_pos failed]
          exact congrArg (false, ·) ((clean.anchors _ none failed).trans effect')
        | some anchors =>
          obtain ⟨adds, effect''⟩ := documented.anchors
            (ssl.usePrivateKeyFile (ssl.useCertificateChainFile c.ctx (some cert)).2
              (files.privateKey c.keyPath)).2 anchors
          rw [if_neg (by simp [adds])]
          exact congrArg (true, ·) (effect''.trans (congrArg (·.withAnchors anchors) effect'))

variable {m : Material Cert Key Anchor}

theorem withCertificate_eq (cert : Cert) : m.withCertificate fits cert = m ↔
    m.certificate = some cert ∧ ∀ key ∈ m.privateKey, fits cert key = true := by
  constructor
  · intro same
    have certificate := congrArg Material.certificate same
    have privateKey := congrArg Material.privateKey same
    refine ⟨certificate.symm, fun key held => ?_⟩
    exact (filter_eq_some_iff.mp (privateKey.trans (mem_def.mp held))).2
  · rintro ⟨certificate, stays⟩
    -- a key that fits is not discarded
    have privateKey : m.privateKey.filter (fits cert) = m.privateKey := by
      cases held : m.privateKey with
      | none => rfl
      | some key => simp [Option.filter, stays key held]
    rw [Material.withCertificate, privateKey, ← certificate]

theorem withKey_eq (cert : Cert) (key : Key) : (m.withCertificate fits cert).withKey key = m ↔
    m.certificate = some cert ∧ m.privateKey = some key := by
  constructor
  · intro same
    exact ⟨(congrArg Material.certificate same).symm, (congrArg Material.privateKey same).symm⟩
  · rintro ⟨certificate, privateKey⟩
    rw [Material.withKey, Material.withCertificate, ← certificate, ← privateKey]

theorem mem_append_iff_all {trust anchors : List Anchor} :
    (∀ anchor, anchor ∈ trust ++ anchors ↔ anchor ∈ anchors) ↔
      ∀ anchor ∈ trust, anchor ∈ anchors := by
  simp only [List.mem_append]
  constructor
  · exact fun same anchor old => (same anchor).mp (.inl old)
  · exact fun kept anchor => ⟨fun either => either.elim (kept anchor) id, .inr⟩

theorem fromFiles_added {cert : Cert} {key : Key} {anchors : List Anchor}
    (read : files.certificate c.certPath = some cert)
    (readKey : files.privateKey c.keyPath = some key) (hasCa : c.caPath ≠ "")
    (readCa : files.anchors c.caPath = some anchors) :
    FromFiles c m (((m.withCertificate fits cert).withKey key).withAnchors anchors) files ↔
      ∀ anchor ∈ m.trust, anchor ∈ anchors := by
  constructor
  · intro fromFiles
    obtain ⟨_, same, all⟩ := fromFiles.anchors hasCa
    rw [readCa] at same
    cases same
    exact mem_append_iff_all.mp all
  · intro kept
    exact ⟨read.symm, readKey.symm, fun _ => ⟨anchors, readCa, mem_append_iff_all.mpr kept⟩,
      fun noCa => absurd noCa hasCa⟩

theorem reloaded_iff (hasCert : c.certPath ≠ "") (hasKey : c.keyPath ≠ "") :
    ((reloaded fits c m files).1 = false → (reloaded fits c m files).2 = m) ∧
        ((reloaded fits c m files).1 = true → FromFiles c m (reloaded fits c m files).2 files) ↔
      c.InStep fits m files := by
  simp only [InStep, ne_eq, hasCert, hasKey, not_false_eq_true, true_implies]
  unfold reloaded
  cases read : files.certificate c.certPath with
  | none => exact iff_of_true ⟨fun _ => rfl, nofun⟩ nofun
  | some cert =>
    simp only [mem_def, Option.some.injEq, forall_eq']
    cases found : c.keyFor fits files cert with
    | none =>
      -- the certificate is installed, and the key is not
      simp only [withCertificate_eq, true_implies, Bool.false_eq_true, false_implies, and_true, mem_def]
    | some key =>
      obtain ⟨readKey, _⟩ := keyFor_fits found
      dsimp only
      by_cases noCa : c.caPath = ""
      · rw [if_pos noCa]
        refine iff_of_true ⟨nofun, fun _ => ⟨read.symm, readKey.symm, ?_, fun _ => rfl⟩⟩ ?_
        · exact fun hasCa => absurd noCa hasCa
        · exact fun hasCa => absurd noCa hasCa
      · rw [if_neg noCa]
        cases readCa : files.anchors c.caPath with
        | none =>
          simp only [withKey_eq, true_implies, Bool.false_eq_true, false_implies, and_true,
            noCa, not_false_eq_true]
        | some anchors =>
          simp only [noCa, not_false_eq_true, true_implies, Bool.true_eq_false,
            false_implies, true_and]
          exact fromFiles_added read readKey noCa readCa

end Reload

/-- One whose contexts are what they present and trust, and whose calls do what is documented. -/
def plainSsl (fits : Cert → Key → Bool) : OpenSsl (Material Cert Key Anchor) Cert Key Anchor where
  inEffect := id
  useCertificateChainFile m file :=
    match file with
    | none => (false, m)
    | some cert => (true, m.withCertificate fits cert)
  usePrivateKeyFile m file :=
    match file.filter fun key => m.certificate.all (fits · key) with
    | none => (false, m)
    | some key => (true, m.withKey key)
  checkPrivateKey := Material.paired fits
  loadVerifyLocations m file :=
    match file with
    | none => (false, m)
    | some anchors => (true, m.withAnchors anchors)

theorem plainSsl_documented :
    (plainSsl fits : OpenSsl (Material Cert Key Anchor) Cert Key Anchor).Documented fits where
  certificate _ _ := ⟨rfl, rfl⟩
  noCertificate _ := rfl
  privateKey m key takes := by
    have takes : m.certificate.all (fits · key) = true := takes
    simp [plainSsl, Option.filter, takes]
  otherKey m key refuses := by
    have refuses : m.certificate.all (fits · key) = false := refuses
    simp [plainSsl, Option.filter, refuses]
  noKey _ := rfl
  check _ := rfl
  anchors _ _ := ⟨rfl, rfl⟩
  noAnchors _ := rfl

theorem plainSsl_failsClean :
    (plainSsl fits : OpenSsl (Material Cert Key Anchor) Cert Key Anchor).FailsClean where
  certificate m file failed := by
    cases file with
    | none => rfl
    | some cert => cases failed
  privateKey m file failed := by
    simp only [plainSsl] at failed ⊢
    split at failed
    · rfl
    · cases failed
  anchors m file failed := by
    cases file with
    | none => rfl
    | some anchors => cases failed

/-- A server on which certificates fit the keys of the same number. -/
def rotatingServer : TlsContext (Material Nat Nat Nat) where
  role := .server
  ctx := { certificate := some 1, privateKey := some 1, trust := [1] }
  certPath := "tls.crt"
  keyPath := "tls.key"
  caPath := "ca.crt"

/-- The paths of the last calls that did not throw. -/
structure Loaded where
  certPath : String := ""
  keyPath : String := ""
  caPath : String := ""

def noteLoaded (c : TlsContext σ) (e : Event Cert Key Anchor) (loaded : Loaded) : Loaded :=
  match e with
  | .useCertificateAndKey certPath keyPath files =>
    if (c.useCertificateAndKey ssl certPath keyPath files).1 then { loaded with certPath, keyPath }
    else loaded
  | .loadCaFile caPath files =>
    if (c.loadCaFile ssl caPath files).1 then { loaded with caPath } else loaded
  | .reload _ => loaded

/-- A reload that succeeds puts into effect the certificate and the key of the files that were
loaded last, which belong together, and no anchor of their CA file is missing. -/
def ReloadsLoaded (x : TlsContext σ × Loaded) : Event Cert Key Anchor → Prop
  | .reload files => (x.1.reload ssl files).1 = true →
    let m := ssl.inEffect (x.1.reload ssl files).2.ctx
    (∃ cert key, files.certificate x.2.certPath = some cert ∧
      files.privateKey x.2.keyPath = some key ∧ fits cert key = true ∧
      m.certificate = some cert ∧ m.privateKey = some key) ∧
    (x.2.caPath ≠ "" → ∃ anchors, files.anchors x.2.caPath = some anchors ∧ anchors ⊆ m.trust)
  | .useCertificateAndKey _ _ _ | .loadCaFile _ _ => True

section Runs

variable {ssl fits} {c : TlsContext σ} {files : Files Cert Key Anchor}

def Knows (x : TlsContext σ × Loaded) : Prop :=
  x.1.certPath = x.2.certPath ∧ x.1.keyPath = x.2.keyPath ∧ x.1.caPath = x.2.caPath

theorem paths_reload : Knows ((c.reload ssl files).2, ⟨c.certPath, c.keyPath, c.caPath⟩) := by
  unfold reload
  dsimp only
  split_ifs <;> exact ⟨rfl, rfl, rfl⟩

theorem knows_step (c c' : TlsContext σ) (loaded : Loaded) (e : Event Cert Key Anchor)
    (knows : Knows (c, loaded)) (stepped : c.step ssl e = some c') :
    Knows (c', noteLoaded ssl c e loaded) := by
  obtain ⟨certPath, keyPath, caPath⟩ := loaded
  dsimp only [Knows] at knows
  obtain ⟨rfl, rfl, rfl⟩ := knows
  cases e with
  | useCertificateAndKey certPath keyPath files =>
    cases stepped
    unfold noteLoaded useCertificateAndKey
    dsimp only
    split_ifs <;> first | exact ⟨rfl, rfl, rfl⟩ | contradiction
  | loadCaFile caPath files =>
    cases stepped
    unfold noteLoaded loadCaFile
    dsimp only
    split_ifs <;> first | exact ⟨rfl, rfl, rfl⟩ | contradiction
  | reload files =>
    cases stepped
    exact paths_reload

theorem reloaded_true {m : Material Cert Key Anchor} (ok : (reloaded fits c m files).1 = true) :
    (∃ cert key, files.certificate c.certPath = some cert ∧ files.privateKey c.keyPath = some key ∧
      fits cert key = true ∧ (reloaded fits c m files).2.certificate = some cert ∧
      (reloaded fits c m files).2.privateKey = some key) ∧
    (c.caPath ≠ "" → ∃ anchors, files.anchors c.caPath = some anchors ∧
      anchors ⊆ (reloaded fits c m files).2.trust) := by
  unfold reloaded at ok ⊢
  cases read : files.certificate c.certPath with
  | none => simp [read] at ok
  | some cert =>
    simp only [read] at ok ⊢
    cases found : c.keyFor fits files cert with
    | none => simp [found] at ok
    | some key =>
      obtain ⟨readKey, fit⟩ := keyFor_fits found
      simp only [found] at ok ⊢
      by_cases noCa : c.caPath = ""
      · rw [if_pos noCa]
        exact ⟨⟨cert, key, rfl, readKey, fit, rfl, rfl⟩, fun hasCa => absurd noCa hasCa⟩
      · rw [if_neg noCa] at ok ⊢
        cases readCa : files.anchors c.caPath with
        | none => simp [readCa] at ok
        | some anchors =>
          exact ⟨⟨cert, key, rfl, readKey, fit, rfl, rfl⟩,
            fun _ => ⟨anchors, rfl, List.subset_append_right _ _⟩⟩

end Runs

end Cox.Tls.TlsContext
