import Mathlib.Data.Int.Basic
import PandaProxy.Python.IpAddress

namespace PandaProxy.Certificates

open Python

-- Times are microseconds.
def day : Int := 86400 * 1000000

def caValidDays : Int := 3650
def leafValidDays : Int := 825
def certRenewalMarginDays : Int := 30

structure Certificate (Name Key : Type) where
  subject : Name
  issuer : Name
  publicKey : Key
  -- The key that made the signature: it verifies under this one only.
  signedWith : Key
  notValidAfter : Int
  dnsNames : List String
  -- `none` where there is no such extension.
  ipAddresses : Option (List String)
  ca : Bool
  deriving DecidableEq

inductive CertificateFile (Name Key : Type) where
  | absent
  | unreadable
  | pem (certificate : Certificate Name Key)
  deriving DecidableEq

inductive KeyFile (Key : Type) where
  | absent
  | unreadable
  | encrypted
  | notRsa
  | rsa (key : Key)
  deriving DecidableEq

structure CertsDir (Name Key : Type) where
  caCert : CertificateFile Name Key
  caKey : KeyFile Key
  cert : CertificateFile Name Key
  key : KeyFile Key
  deriving DecidableEq

namespace CertificateFile

variable {Name Key : Type}

def «exists» : CertificateFile Name Key → Bool
  | absent => false
  | _ => true

-- `none` is the `OSError` or `ValueError`.
def load : CertificateFile Name Key → Option (Certificate Name Key)
  | pem certificate => some certificate
  | _ => none

end CertificateFile

def KeyFile.exists {Key : Type} : KeyFile Key → Bool
  | absent => false
  | _ => true

-- What the step takes from outside: how names and addresses are read and where it may write.
structure Host (Name : Type) where
  commonName : String → Name
  ipv6 : String → Option String
  writesCaCert : Bool
  writesCaKey : Bool
  writesCert : Bool
  writesKey : Bool

section

variable {Name Key : Type}

def Certificate.directlyIssuedBy [DecidableEq Name] [DecidableEq Key] (leaf ca : Certificate Name Key) : Bool :=
  decide (leaf.issuer = ca.subject) && decide (leaf.signedWith = ca.publicKey)

-- `not_valid_after` has no fraction of a second.
def wholeSeconds (t : Int) : Int := t - t % 1000000

-- The outer `none` is an exception that nothing here catches.
def loadCa (caCert : CertificateFile Name Key) (caKey : KeyFile Key) :
    Option (Option (Certificate Name Key × Key)) :=
  if !caCert.exists || !caKey.exists then some none
  else
    match caCert.load with
    | none => some none
    | some cert =>
        match caKey with
        | .encrypted => none
        | .rsa key => some (some (cert, key))
        | _ => some none

def createCa (host : Host Name) (key : Key) (t : Int) (dir : CertsDir Name Key) :
    Option ((Certificate Name Key × Key) × CertsDir Name Key) :=
  let name := host.commonName "PandaProxy Local CA"
  let cert : Certificate Name Key :=
    { subject := name
      issuer := name
      publicKey := key
      signedWith := key
      notValidAfter := wholeSeconds (t + caValidDays * day)
      dnsNames := []
      ipAddresses := none
      ca := true }
  if host.writesCaKey && host.writesCaCert then
    some ((cert, key), { dir with caKey := .rsa key, caCert := .pem cert })
  else none

def issueLeaf (host : Host Name) (key : Key) (t : Int) (caCert : Certificate Name Key) (caKey : Key)
    (commonName : String) (sanDns sanIps : List String) (dir : CertsDir Name Key) :
    Option (CertsDir Name Key) :=
  let addresses := sanIps.filterMap (IpAddress.ipAddress host.ipv6)
  let names := if sanDns.isEmpty && addresses.isEmpty then ["localhost"] else sanDns
  let cert : Certificate Name Key :=
    { subject := host.commonName commonName
      issuer := caCert.subject
      publicKey := key
      signedWith := caKey
      notValidAfter := wholeSeconds (t + leafValidDays * day)
      dnsNames := names
      ipAddresses := some addresses
      ca := false }
  if host.writesKey && host.writesCert then some { dir with key := .rsa key, cert := .pem cert } else none

def isSignedBy [DecidableEq Name] [DecidableEq Key] (cert : CertificateFile Name Key) (caCert : Certificate Name Key) : Bool :=
  match cert.load with
  | none => false
  | some leaf => leaf.directlyIssuedBy caCert

def certificateCovers (cert : CertificateFile Name Key) (address : String) : Bool :=
  match cert.load.bind Certificate.ipAddresses with
  | none => false
  | some addresses => addresses.contains address

def certificateExpiresSoon (t : Int) (cert : CertificateFile Name Key) : Bool :=
  match cert.load with
  | none => true
  | some cert => decide (cert.notValidAfter ≤ t + certRenewalMarginDays * day)

def reason [DecidableEq Name] [DecidableEq Key] (t : Int) (advertiseIp : Option String)
    (caCert : Certificate Name Key) (dir : CertsDir Name Key) : Option String :=
  if !dir.cert.exists || !dir.key.exists then some "no certificate yet"
  else if !isSignedBy dir.cert caCert then some "the existing certificate is not signed by the local CA"
  else
    match advertiseIp.filter (fun address => !certificateCovers dir.cert address) with
    | some address => some ("the existing certificate does not cover " ++ address)
    | none =>
        if certificateExpiresSoon t dir.cert then some "the existing certificate has expired or is about to"
        else none

def sanIps (bind : String) (advertiseIp : Option String) : List String :=
  let ips := ["127.0.0.1", "::1"]
  let ips := if bind ≠ "0.0.0.0" then ips ++ [bind] else ips
  match advertiseIp with
  | none => ips
  | some address => if ips.contains address then ips else ips ++ [address]

-- `caKey` and `leafKey` are what `generate_private_key` returns where it is called.
def certificateStep [DecidableEq Name] [DecidableEq Key] (host : Host Name) (caKey leafKey : Key) (t : Int) (bind : String)
    (advertiseIp : Option String) (dir : CertsDir Name Key) : Option (CertsDir Name Key) := do
  let loaded ← loadCa dir.caCert dir.caKey
  let ((caCert, caKey), dir) ←
    match loaded with
    | some authority => some (authority, dir)
    | none => createCa host caKey t dir
  match reason t advertiseIp caCert dir with
  | none => some dir
  | some _ =>
      issueLeaf host leafKey t caCert caKey "PandaProxy" ["localhost"] (sanIps bind advertiseIp) dir

structure UsableChain (t : Int) (advertiseIp : Option String) (ca leaf : Certificate Name Key) : Prop where
  issued : leaf.issuer = ca.subject
  signed : leaf.signedWith = ca.publicKey
  listed : ∀ address, advertiseIp = some address → ∃ ips, leaf.ipAddresses = some ips ∧ address ∈ ips
  leafLasts : t + certRenewalMarginDays * day < leaf.notValidAfter
  caLasts : t + certRenewalMarginDays * day < ca.notValidAfter

def Usable (t : Int) (advertiseIp : Option String) (dir : CertsDir Name Key) : Prop :=
  ∃ ca leaf, dir.caCert = .pem ca ∧ dir.cert = .pem leaf ∧ UsableChain t advertiseIp ca leaf

-- An authority that is kept lasts, and is the one whose key is there unless the leaf is kept too.
def Reusable [DecidableEq Name] [DecidableEq Key] (t : Int) (advertiseIp : Option String) (dir : CertsDir Name Key) : Prop :=
  ∀ ca key, loadCa dir.caCert dir.caKey = some (some (ca, key)) →
    t + certRenewalMarginDays * day < ca.notValidAfter ∧
      (key = ca.publicKey ∨ reason t advertiseIp ca dir = none)

variable {host : Host Name} {t : Int} {bind : String} {advertiseIp : Option String}
  {dir dir' : CertsDir Name Key} {ca leaf : Certificate Name Key} {key caKey leafKey : Key}

theorem loadCa_some (h : loadCa dir.caCert dir.caKey = some (some (ca, key))) :
    dir.caCert = .pem ca ∧ dir.caKey = .rsa key := by
  cases hcert : dir.caCert <;> cases hkey : dir.caKey <;>
    simp_all [loadCa, CertificateFile.exists, KeyFile.exists, CertificateFile.load]

theorem loadCa_pem (hcert : dir.caCert = .pem ca) (hkey : dir.caKey = .rsa key) :
    loadCa dir.caCert dir.caKey = some (some (ca, key)) := by
  simp [loadCa, hcert, hkey, CertificateFile.exists, KeyFile.exists, CertificateFile.load]

theorem wholeSeconds_lasts {d : Int} (h : certRenewalMarginDays < d) :
    t + certRenewalMarginDays * day < wholeSeconds (t + d * day) := by
  simp only [wholeSeconds, certRenewalMarginDays, day] at h ⊢
  omega

theorem usable_iff (hca : dir.caCert = .pem ca) (hleaf : dir.cert = .pem leaf) :
    Usable t advertiseIp dir ↔ UsableChain t advertiseIp ca leaf := by
  constructor
  · rintro ⟨ca', leaf', hca', hleaf', h⟩
    cases hca.symm.trans hca'
    cases hleaf.symm.trans hleaf'
    exact h
  · exact fun h => ⟨ca, leaf, hca, hleaf, h⟩

theorem createCa_load {authority : Certificate Name Key × Key}
    (h : createCa host caKey t dir = some (authority, dir')) :
    loadCa dir'.caCert dir'.caKey = some (some authority) ∧ authority.2 = authority.1.publicKey ∧
      t + certRenewalMarginDays * day < authority.1.notValidAfter := by
  simp only [createCa] at h
  split at h
  · cases h
    exact ⟨rfl, rfl, wholeSeconds_lasts (by decide)⟩
  · cases h

theorem mem_sanIps {address : String} (hip : IpAddress.isIpv4 address = true) :
    address ∈ (sanIps bind (some address)).filterMap (IpAddress.ipAddress host.ipv6) := by
  have hadded : ∀ ips : List String, address ∈ if ips.contains address then ips else ips ++ [address] := by
    intro ips
    split
    · next h => exact List.contains_iff_mem.mp h
    · exact List.mem_append_right _ (List.mem_singleton.mpr rfl)
  exact List.mem_filterMap.mpr ⟨address, hadded _, if_pos hip⟩

variable [DecidableEq Name] [DecidableEq Key]

theorem reason_none_iff (hleaf : dir.cert = .pem leaf) : reason t advertiseIp ca dir = none ↔
    dir.key.exists = true ∧ leaf.directlyIssuedBy ca = true ∧
      (∀ address, advertiseIp = some address → ∃ ips, leaf.ipAddresses = some ips ∧ address ∈ ips) ∧
      t + certRenewalMarginDays * day < leaf.notValidAfter := by
  have hcovers : ∀ address, certificateCovers dir.cert address = true ↔
      ∃ ips, leaf.ipAddresses = some ips ∧ address ∈ ips := by
    intro address
    simp only [certificateCovers, hleaf, CertificateFile.load, Option.bind_some]
    cases leaf.ipAddresses <;> simp
  have hsigned : isSignedBy dir.cert ca = leaf.directlyIssuedBy ca := by
    simp only [isSignedBy, hleaf, CertificateFile.load]
  have hexpires : certificateExpiresSoon t dir.cert = decide (leaf.notValidAfter ≤ t + certRenewalMarginDays * day) := by
    simp only [certificateExpiresSoon, hleaf, CertificateFile.load]
  have hexists : dir.cert.exists = true := by rw [hleaf]; rfl
  simp only [reason, hexists, hsigned, hexpires]
  cases hkey : dir.key.exists
  · simp
  cases hissued : leaf.directlyIssuedBy ca
  · simp
  cases advertiseIp with
  | none => simp
  | some address =>
      have hc := hcovers address
      cases hcov : certificateCovers dir.cert address
      · rw [hcov] at hc
        have hnot : ¬ ∃ ips, leaf.ipAddresses = some ips ∧ address ∈ ips := fun h => nomatch hc.mpr h
        simpa [Option.filter, hcov] using fun ips hips hmem => absurd ⟨ips, hips, hmem⟩ hnot
      · rw [hcov] at hc
        simp [Option.filter, hcov, hc.mp rfl]

theorem leaf_of_reason (h : reason t advertiseIp ca dir = none) : ∃ leaf, dir.cert = .pem leaf := by
  cases hcert : dir.cert with
  | absent => simp [reason, hcert, CertificateFile.exists] at h
  | unreadable =>
      simp [reason, hcert, isSignedBy, CertificateFile.exists, CertificateFile.load] at h
      split at h <;> cases h
  | pem leaf => exact ⟨leaf, rfl⟩

theorem chain_iff (hleaf : dir.cert = .pem leaf) (hkey : dir.key.exists = true) :
    UsableChain t advertiseIp ca leaf ↔
      reason t advertiseIp ca dir = none ∧ t + certRenewalMarginDays * day < ca.notValidAfter := by
  rw [reason_none_iff hleaf]
  simp only [Certificate.directlyIssuedBy, Bool.and_eq_true, decide_eq_true_eq]
  constructor
  · exact fun h => ⟨⟨hkey, ⟨h.issued, h.signed⟩, h.listed, h.leafLasts⟩, h.caLasts⟩
  · rintro ⟨⟨_, ⟨hissued, hsigned⟩, hlisted, hlasts⟩, hca⟩
    exact ⟨hissued, hsigned, hlisted, hlasts, hca⟩

theorem key_of_reason (h : reason t advertiseIp ca dir = none) : dir.key.exists = true := by
  obtain ⟨leaf, hleaf⟩ := leaf_of_reason h
  exact ((reason_none_iff hleaf).mp h).1

theorem issueLeaf_reason (hip : advertiseIp.all IpAddress.isIpv4 = true)
    (h : issueLeaf host leafKey t ca key "PandaProxy" ["localhost"] (sanIps bind advertiseIp) dir = some dir') :
    dir'.caCert = dir.caCert ∧ dir'.caKey = dir.caKey ∧
      (reason t advertiseIp ca dir' = none ↔ key = ca.publicKey) := by
  simp only [issueLeaf] at h
  split at h
  · cases h
    refine ⟨rfl, rfl, ?_⟩
    rw [reason_none_iff rfl]
    simp only [KeyFile.exists, Certificate.directlyIssuedBy, Bool.and_eq_true, decide_eq_true_eq]
    constructor
    · exact fun h => h.2.1.2
    · intro hkey
      refine ⟨trivial, ⟨trivial, hkey⟩, fun address haddress => ⟨_, rfl, ?_⟩, wholeSeconds_lasts (by decide)⟩
      subst haddress
      exact mem_sanIps hip
  · cases h

theorem step_of_load (h : loadCa dir.caCert dir.caKey = some (some (ca, key))) :
    certificateStep host caKey leafKey t bind advertiseIp dir =
      match reason t advertiseIp ca dir with
      | none => some dir
      | some _ => issueLeaf host leafKey t ca key "PandaProxy" ["localhost"] (sanIps bind advertiseIp) dir := by
  simp only [certificateStep, h]
  rfl

theorem settled_iff {caKey₂ leafKey₂ : Key} (hip : advertiseIp.all IpAddress.isIpv4 = true)
    (hload : loadCa dir.caCert dir.caKey = some (some (ca, key)))
    (hstep : certificateStep host caKey leafKey t bind advertiseIp dir = some dir') :
    (Usable t advertiseIp dir' ∧ certificateStep host caKey₂ leafKey₂ t bind advertiseIp dir' = some dir') ↔
      t + certRenewalMarginDays * day < ca.notValidAfter ∧
        (key = ca.publicKey ∨ reason t advertiseIp ca dir = none) := by
  obtain ⟨hcert, hkey⟩ := loadCa_some hload
  have hfinal : ∀ {d : CertsDir Name Key}, d.caCert = .pem ca → d.caKey = .rsa key →
      ∀ {leaf}, d.cert = .pem leaf → d.key.exists = true →
        ((Usable t advertiseIp d ∧ certificateStep host caKey₂ leafKey₂ t bind advertiseIp d = some d) ↔
          t + certRenewalMarginDays * day < ca.notValidAfter ∧ reason t advertiseIp ca d = none) := by
    intro d hc hk leaf hl hkey
    rw [usable_iff hc hl, chain_iff hl hkey, step_of_load (loadCa_pem hc hk)]
    constructor
    · exact fun h => ⟨h.1.2, h.1.1⟩
    · rintro ⟨hlasts, hreason⟩
      exact ⟨⟨hreason, hlasts⟩, by rw [hreason]⟩
  rw [step_of_load hload] at hstep
  cases hreason : reason t advertiseIp ca dir with
  | none =>
      rw [hreason] at hstep
      cases hstep
      obtain ⟨leaf, hleaf⟩ := leaf_of_reason hreason
      rw [hfinal hcert hkey hleaf (key_of_reason hreason), hreason]
      simp
  | some text =>
      rw [hreason] at hstep
      obtain ⟨hcert', hkey', hissued⟩ := issueLeaf_reason hip hstep
      have hleaf : ∃ leaf, dir'.cert = .pem leaf ∧ dir'.key.exists = true := by
        simp only [issueLeaf] at hstep
        split at hstep
        · cases hstep
          exact ⟨_, rfl, rfl⟩
        · cases hstep
      obtain ⟨leaf, hleaf, hexists⟩ := hleaf
      rw [hfinal (hcert'.trans hcert) (hkey'.trans hkey) hleaf hexists, hissued]
      simp

theorem certificate_provisioning {caKey₂ leafKey₂ : Key} (hip : advertiseIp.all IpAddress.isIpv4 = true)
    (hstep : certificateStep host caKey leafKey t bind advertiseIp dir = some dir') :
    (Usable t advertiseIp dir' ∧ certificateStep host caKey₂ leafKey₂ t bind advertiseIp dir' = some dir') ↔
      Reusable t advertiseIp dir := by
  cases hload : loadCa dir.caCert dir.caKey with
  | none =>
      simp only [certificateStep, hload] at hstep
      cases hstep
  | some loaded =>
      cases loaded with
      | some authority =>
          obtain ⟨ca, key⟩ := authority
          rw [settled_iff hip hload hstep, Reusable, hload]
          constructor
          · intro h ca' key' he
            cases he
            exact h
          · exact fun h => h ca key rfl
      | none =>
          cases hcreate : createCa host caKey t dir with
          | none => simp [certificateStep, hload, hcreate] at hstep
          | some created =>
              obtain ⟨authority, dir₁⟩ := created
              obtain ⟨hload₁, hkey, hlasts⟩ := createCa_load hcreate
              have hsame : certificateStep host caKey leafKey t bind advertiseIp dir =
                  certificateStep host caKey leafKey t bind advertiseIp dir₁ := by
                simp only [certificateStep, hload, hload₁, hcreate]
                rfl
              rw [settled_iff hip hload₁ (hsame ▸ hstep), Reusable, hload]
              exact iff_of_true ⟨hlasts, .inl hkey⟩ nofun

end

def plainHost : Host String := ⟨id, fun _ => none, true, true, true, true⟩

def mismatchedDir : CertsDir String Nat where
  caCert := .pem ⟨"PandaProxy Local CA", "PandaProxy Local CA", 1, 1, 3650 * day, [], none, true⟩
  caKey := .rsa 2
  cert := .absent
  key := .absent

theorem mismatched_authority_kept : ¬ ∀ (dir dir' : CertsDir String Nat) (caKey leafKey caKey₂ leafKey₂ : Nat),
    certificateStep plainHost caKey leafKey 0 "0.0.0.0" none dir = some dir' →
      Usable 0 none dir' ∧ certificateStep plainHost caKey₂ leafKey₂ 0 "0.0.0.0" none dir' = some dir' := by
  intro h
  have hstep : (certificateStep plainHost 3 4 0 "0.0.0.0" none mismatchedDir).isSome = true := by decide +kernel
  obtain ⟨dir', hdir'⟩ := Option.isSome_iff_exists.mp hstep
  obtain ⟨_, hagain⟩ := h mismatchedDir dir' 3 4 5 6 hdir'
  have hdiffer : (certificateStep plainHost 3 4 0 "0.0.0.0" none mismatchedDir).bind
      (certificateStep plainHost 5 6 0 "0.0.0.0" none) ≠
        certificateStep plainHost 3 4 0 "0.0.0.0" none mismatchedDir := by
    decide +kernel
  rw [hdir', Option.bind_some] at hdiffer
  exact hdiffer hagain

def agedDir : CertsDir String Nat where
  caCert := .pem ⟨"PandaProxy Local CA", "PandaProxy Local CA", 1, 1, 3650 * day, [], none, true⟩
  caKey := .rsa 1
  cert := .pem ⟨"PandaProxy", "PandaProxy Local CA", 2, 1, 20 * day, ["localhost"], some ["127.0.0.1", "192.168.1.2"], false⟩
  key := .rsa 2

theorem certificate_provisioning_renewed : ∃ dir',
    certificateStep plainHost 3 4 0 "192.168.1.2" (some "192.168.1.2") agedDir = some dir' ∧
      dir'.caCert = agedDir.caCert ∧ dir'.key = .rsa 4 ∧ Usable 0 (some "192.168.1.2") dir' ∧
      certificateStep plainHost 5 6 0 "192.168.1.2" (some "192.168.1.2") dir' = some dir' := by
  have hstep : (certificateStep plainHost 3 4 0 "192.168.1.2" (some "192.168.1.2") agedDir).map
      (fun dir' => (dir'.caCert, dir'.key)) = some (agedDir.caCert, .rsa 4) := by
    decide +kernel
  obtain ⟨dir', hdir', hfiles⟩ := Option.map_eq_some_iff.mp hstep
  obtain ⟨hca, hkey⟩ := Prod.mk.inj hfiles
  have hreusable : Reusable 0 (some "192.168.1.2") agedDir := by
    rintro ca key ⟨⟩
    exact ⟨by decide, .inl rfl⟩
  exact ⟨dir', hdir', hca, hkey, (certificate_provisioning (by decide +kernel) hdir').mpr hreusable⟩

end PandaProxy.Certificates
