import Cox.Lib.Machine

/-!
# The TLS context

The part of `TlsContext` (tls/tls_context.h) that loads and reloads certificates. OpenSSL is a
parameter: what is known of its calls are hypotheses. `Documented` is what the documentation
says, namely when a call succeeds and what it does then: a new certificate discards a private key
that does not fit it, a private key that does not fit the certificate is refused, and trust
anchors are added to those that are there. `FailsClean` is more than that: a call that fails
changes nothing.
-/
namespace Cox.Tls

open Cox.Lib

variable {σ Cert Key Anchor : Type}

/-! ### OpenSSL -/

/-- What an `SSL_CTX` presents and trusts. -/
structure Material (Cert Key Anchor : Type) where
  certificate : Option Cert := none
  privateKey : Option Key := none
  trust : List Anchor := []
  deriving DecidableEq

namespace Material

variable (fits : Cert → Key → Bool) (m : Material Cert Key Anchor)

def withCertificate (cert : Cert) : Material Cert Key Anchor :=
  { m with certificate := some cert, privateKey := m.privateKey.filter (fits cert) }

def withKey (key : Key) : Material Cert Key Anchor := { m with privateKey := some key }

def withAnchors (anchors : List Anchor) : Material Cert Key Anchor :=
  { m with trust := m.trust ++ anchors }

/-- The private key belongs to the certificate. -/
def paired : Bool :=
  match m.certificate, m.privateKey with
  | some cert, some key => fits cert key
  | some _, none | none, some _ | none, none => false

end Material

/-- The calls on an `SSL_CTX`, each with the word whether it succeeds. The files are given by
what can be read from them. -/
structure OpenSsl (σ Cert Key Anchor : Type) where
  inEffect : σ → Material Cert Key Anchor
  useCertificateChainFile : σ → Option Cert → Bool × σ
  usePrivateKeyFile : σ → Option Key → Bool × σ
  checkPrivateKey : σ → Bool
  loadVerifyLocations : σ → Option (List Anchor) → Bool × σ

namespace OpenSsl

variable (ssl : OpenSsl σ Cert Key Anchor) (fits : Cert → Key → Bool)

structure Documented : Prop where
  certificate : ∀ s cert, (ssl.useCertificateChainFile s (some cert)).1 = true ∧
    ssl.inEffect (ssl.useCertificateChainFile s (some cert)).2 =
      (ssl.inEffect s).withCertificate fits cert
  noCertificate : ∀ s, (ssl.useCertificateChainFile s none).1 = false
  privateKey : ∀ s key, (ssl.inEffect s).certificate.all (fits · key) = true →
    (ssl.usePrivateKeyFile s (some key)).1 = true ∧
      ssl.inEffect (ssl.usePrivateKeyFile s (some key)).2 = (ssl.inEffect s).withKey key
  otherKey : ∀ s key, (ssl.inEffect s).certificate.all (fits · key) = false →
    (ssl.usePrivateKeyFile s (some key)).1 = false
  noKey : ∀ s, (ssl.usePrivateKeyFile s none).1 = false
  check : ∀ s, ssl.checkPrivateKey s = (ssl.inEffect s).paired fits
  anchors : ∀ s anchors, (ssl.loadVerifyLocations s (some anchors)).1 = true ∧
    ssl.inEffect (ssl.loadVerifyLocations s (some anchors)).2 = (ssl.inEffect s).withAnchors anchors
  noAnchors : ∀ s, (ssl.loadVerifyLocations s none).1 = false

structure FailsClean : Prop where
  certificate : ∀ s file, (ssl.useCertificateChainFile s file).1 = false →
    ssl.inEffect (ssl.useCertificateChainFile s file).2 = ssl.inEffect s
  privateKey : ∀ s file, (ssl.usePrivateKeyFile s file).1 = false →
    ssl.inEffect (ssl.usePrivateKeyFile s file).2 = ssl.inEffect s
  anchors : ∀ s file, (ssl.loadVerifyLocations s file).1 = false →
    ssl.inEffect (ssl.loadVerifyLocations s file).2 = ssl.inEffect s

end OpenSsl

/-- What can be read from the files at some time, by their paths. -/
structure Files (Cert Key Anchor : Type) where
  certificate : String → Option Cert
  privateKey : String → Option Key
  anchors : String → Option (List Anchor)

/-! ### The context -/

inductive Role where
  | server
  | client
  deriving DecidableEq

structure TlsContext (σ : Type) where
  role : Role
  ctx : σ
  certPath : String := ""
  keyPath : String := ""
  caPath : String := ""

namespace TlsContext

variable (ssl : OpenSsl σ Cert Key Anchor)

/-- The first component says whether the call returns, or throws. -/
def useCertificateAndKey (c : TlsContext σ) (certPath keyPath : String)
    (files : Files Cert Key Anchor) : Bool × TlsContext σ :=
  let cert := ssl.useCertificateChainFile c.ctx (files.certificate certPath)
  if cert.1 = false then (false, { c with ctx := cert.2 })
  else
    let key := ssl.usePrivateKeyFile cert.2 (files.privateKey keyPath)
    if key.1 = false then (false, { c with ctx := key.2 })
    else if ssl.checkPrivateKey key.2 = false then (false, { c with ctx := key.2 })
    else (true, { c with ctx := key.2, certPath, keyPath })

def loadCaFile (c : TlsContext σ) (caPath : String) (files : Files Cert Key Anchor) :
    Bool × TlsContext σ :=
  let ca := ssl.loadVerifyLocations c.ctx (files.anchors caPath)
  if ca.1 = false then (false, { c with ctx := ca.2 }) else (true, { c with ctx := ca.2, caPath })

def reload (c : TlsContext σ) (files : Files Cert Key Anchor) : Bool × TlsContext σ :=
  if c.certPath = "" ∨ c.keyPath = "" then (false, c)
  else
    let cert := ssl.useCertificateChainFile c.ctx (files.certificate c.certPath)
    if cert.1 = false then (false, { c with ctx := cert.2 })
    else
      let key := ssl.usePrivateKeyFile cert.2 (files.privateKey c.keyPath)
      if key.1 = false then (false, { c with ctx := key.2 })
      else if ssl.checkPrivateKey key.2 = false then (false, { c with ctx := key.2 })
      else if c.caPath = "" then (true, { c with ctx := key.2 })
      else
        let ca := ssl.loadVerifyLocations key.2 (files.anchors c.caPath)
        if ca.1 = false then (false, { c with ctx := ca.2 }) else (true, { c with ctx := ca.2 })

/-! ### The machine -/

/-- A call, with what the files hold at that time. -/
inductive Event (Cert Key Anchor : Type) where
  | useCertificateAndKey (certPath keyPath : String) (files : Files Cert Key Anchor)
  | loadCaFile (caPath : String) (files : Files Cert Key Anchor)
  | reload (files : Files Cert Key Anchor)

/-- Whether a call returns, throws or fails, the context is as it left it. -/
def step (c : TlsContext σ) : Event Cert Key Anchor → Option (TlsContext σ)
  | .useCertificateAndKey certPath keyPath files =>
    some (c.useCertificateAndKey ssl certPath keyPath files).2
  | .loadCaFile caPath files => some (c.loadCaFile ssl caPath files).2
  | .reload files => some (c.reload ssl files).2

end TlsContext

end Cox.Tls
