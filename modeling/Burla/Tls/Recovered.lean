/-
Whether a head comes up after starts that have been cut off.

* `sound_iff_healthy`: when the next start that is not cut off succeeds and leaves four files that
  match, whatever its host and its time.
* `recovers_iff`: along a run of starts this holds everywhere when each start that is cut off is so
  at a harmless place; and a complete CA with a key identifier is never replaced.
-/
import Burla.Tls.Bootstrap

namespace Burla.Tls

variable {ι : Type*} [DecidableEq ι] (ipAddress : Text → Option ι)

/-! ### Files that match -/

/-- Two pairs of files that match, for a host at a time. -/
structure Matching (caKey : Key) (caCert : CaCert) (headKey : Key) (headCert : Leaf ι)
    (headHost : Text) (now : ℤ) : Prop where
  ca : caCert.publicKey = caKey
  head : headCert.publicKey = headKey
  signed : headCert.issuerKey = caKey
  covers : headCert.covers ipAddress headHost = true
  lasts : now + year < headCert.notAfter

namespace Dir

/-- All four files are there, and match. -/
def Matches (d : Dir ι) (headHost : Text) (now : ℤ) : Prop :=
  ∃ caKey caCert headKey headCert, d = ⟨some caKey, some caCert, some headKey, some headCert⟩ ∧
    Matching ipAddress caKey caCert headKey headCert headHost now

/-- Whether a start generates a CA. -/
def replacesCa (d : Dir ι) : Bool :=
  d.caKey.isNone || d.caCert.any fun certificate => !certificate.hasKeyIdentifier

/-- Whether there is a head certificate that each start from a time on renews. -/
def staleFrom (d : Dir ι) (notBefore : ℤ) : Bool :=
  d.headCert.any fun certificate => decide (certificate.notAfter ≤ notBefore + year)

/-- Whether a start whose CA is kept renews the head pair. -/
def renewsHead (d : Dir ι) (headHost : Text) (now : ℤ) : Bool :=
  d.headKey.isNone || d.headCert.any fun certificate =>
    !certificate.covers ipAddress headHost || decide (certificate.notAfter ≤ now + year)

/-- A head pair that is missing, matches, or is renewed by every start. -/
def HeadHealthy (d : Dir ι) (caKey : Key) (notBefore : ℤ) : Prop :=
  ∀ headKey, d.headKey = some headKey → ∃ headCert, d.headCert = some headCert ∧
    ((headCert.publicKey = headKey ∧ headCert.issuerKey = caKey) ∨
      headCert.notAfter ≤ notBefore + year)

/-- A directory that a start makes complete, whatever its host and its time. -/
def Healthy (d : Dir ι) : Prop :=
  d.replacesCa = true ∨ ∃ caKey caCert, d.caKey = some caKey ∧ d.caCert = some caCert ∧
    caCert.publicKey = caKey ∧ d.HeadHealthy caKey caCert.notBefore

end Dir

/-! ### What a call does -/

section Calls

variable {ipAddress} {headHost : Text} {now : ℤ} {keys : Keys} {d : Dir ι}

lemma covers_newLeaf (key issuerKey : Key) : (newLeaf key issuerKey (sansOf ipAddress headHost).1
    (sansOf ipAddress headHost).2 now).covers ipAddress headHost = true := by
  rw [Leaf.covers, sansOf]
  cases ipAddress headHost with
  | some headIp => exact decide_eq_true (List.mem_singleton_self _)
  | none => exact decide_eq_true (List.mem_singleton_self _)

omit [DecidableEq ι] in
/-- A CA that is kept has a key. -/
lemma Dir.exists_caKey (hkept : d.replacesCa = false) : ∃ caKey, d.caKey = some caKey := by
  refine Option.ne_none_iff_exists'.1 fun hnone => ?_
  rw [Dir.replacesCa, hnone] at hkept
  cases hkept

/-- A call that generates a CA writes all four files. -/
lemma ensureClusterTls_of_replacesCa (h : d.replacesCa = true) :
    ensureClusterTls ipAddress headHost now keys d =
      ⟨newCa keys.ca now ++ newHead ipAddress headHost keys.head keys.ca now, none⟩ := by
  have hca : ensureCa keys now d = .ok (newCa keys.ca now, true) := by
    rw [ensureCa]
    cases hkey : d.caKey with
    | none => rfl
    | some key =>
      rw [Dir.replacesCa, hkey, Option.isNone_some, Bool.false_or, Option.any_eq_true] at h
      obtain ⟨certificate, hcert, hno⟩ := h
      simp only [hcert]
      rw [if_neg (by simpa using hno)]
  rw [ensureClusterTls, hca]
  rfl

/-- Without the certificate of its CA a call raises. -/
lemma ensureClusterTls_of_caCert_none {caKey : Key} (hkey : d.caKey = some caKey)
    (hcert : d.caCert = none) :
    ensureClusterTls ipAddress headHost now keys d = ⟨[], some .fileNotFound⟩ := by
  rw [ensureClusterTls, ensureCa, hkey, hcert]

/-- A call that keeps its CA looks at the head pair. -/
lemma ensureClusterTls_of_ca {caKey : Key} {caCert : CaCert} (hkey : d.caKey = some caKey)
    (hcert : d.caCert = some caCert) (hkept : d.replacesCa = false) :
    ensureClusterTls ipAddress headHost now keys d =
      if d.headKey.isSome ∧ d.headCert = none then ⟨[], some .fileNotFound⟩
      else if d.renewsHead ipAddress headHost now then
        ⟨newHead ipAddress headHost keys.head caKey now, none⟩
      else ⟨[], none⟩ := by
  have hidentifier : caCert.hasKeyIdentifier = true := by
    rw [Dir.replacesCa, hkey, hcert] at hkept
    simpa using hkept
  obtain ⟨_, _, headKey, headCert⟩ := d
  obtain rfl : _ = some caKey := hkey
  obtain rfl : _ = some caCert := hcert
  rw [ensureClusterTls, ensureCa]
  simp only [hidentifier, if_true, Dir.writeAll, List.foldl_nil, loadCa, regenerateHead,
    Dir.renewsHead]
  obtain _ | headKey := headKey
  · rfl
  · obtain _ | headCert := headCert
    · rfl
    · cases hrenew : (!headCert.covers ipAddress headHost || decide (headCert.notAfter ≤ now + year))
      all_goals simp [hrenew]

end Calls

/-! ### Sound directories -/

/-- The keys in a directory have been generated, a CA is valid at some time, and a head certificate
is for some host. -/
structure Dir.WellFormed (d : Dir ι) (generated : ℕ) : Prop where
  caKey_lt : ∀ key, d.caKey = some key → key < generated
  caCert_lt : ∀ certificate, d.caCert = some certificate → certificate.publicKey < generated
  headKey_lt : ∀ key, d.headKey = some key → key < generated
  headCert_lt : ∀ certificate, d.headCert = some certificate →
    certificate.publicKey < generated ∧ certificate.issuerKey < generated
  valid : ∀ certificate, d.caCert = some certificate →
    certificate.notBefore ≤ certificate.notAfter
  covers : ∀ certificate, d.headCert = some certificate →
    ∃ headHost, certificate.covers ipAddress headHost = true

/-- The next start that is not cut off raises nothing and leaves four files that match. -/
def Site.Sound (s : Site ι) : Prop :=
  ∀ headHost now, s.Within now → (s.call ipAddress headHost now).raised = none ∧
    (s.dir.writeAll (s.call ipAddress headHost now).writes).Matches ipAddress headHost now

section Sound

variable {ipAddress} {headHost : Text} {now : ℤ} {s : Site ι} {d : Dir ι}

omit [DecidableEq ι] in
/-- A head key comes with a certificate. -/
lemma Dir.HeadHealthy.there {caKey : Key} {notBefore : ℤ} (h : d.HeadHealthy caKey notBefore) :
    ¬(d.headKey.isSome = true ∧ d.headCert = none) := by
  rintro ⟨hsome, hnone⟩
  obtain ⟨headKey, hheadKey⟩ := Option.isSome_iff_exists.1 hsome
  obtain ⟨headCert, hheadCert, -⟩ := h headKey hheadKey
  rw [hnone] at hheadCert
  cases hheadCert

lemma Dir.Matches.headKey_eq (h : d.Matches ipAddress headHost now) :
    d.headKey = d.headCert.map Leaf.publicKey := by
  obtain ⟨caKey, caCert, headKey, headCert, rfl, hmatching⟩ := h
  exact congrArg some hmatching.head.symm

lemma lt_fiveYears (now : ℤ) : now + year < now + fiveYears := by
  have h : year < fiveYears := by decide
  omega

/-- A new head pair matches. -/
lemma matching_newHead {caKey : Key} {caCert : CaCert} (hca : caCert.publicKey = caKey)
    (headKey : Key) : Matching ipAddress caKey caCert headKey (newLeaf headKey caKey
      (sansOf ipAddress headHost).1 (sansOf ipAddress headHost).2 now) headHost now where
  ca := hca
  head := rfl
  signed := rfl
  covers := covers_newLeaf headKey caKey
  lasts := lt_fiveYears now

/-- With a new CA all is new. -/
lemma Site.sound_of_replacesCa (h : s.dir.replacesCa = true) : s.Sound ipAddress := by
  intro headHost now _
  rw [Site.call, ensureClusterTls_of_replacesCa h]
  have hca : (⟨s.keys.ca, true, now - minute, now + fiveYears⟩ : CaCert).publicKey = s.keys.ca := rfl
  exact ⟨rfl, _, _, _, _, rfl, matching_newHead hca s.keys.head⟩

/-- With a head pair that matches or is renewed a CA that is kept is enough. -/
lemma Site.sound_of_headHealthy {caKey : Key} {caCert : CaCert} (hkey : s.dir.caKey = some caKey)
    (hcert : s.dir.caCert = some caCert) (hpaired : caCert.publicKey = caKey)
    (hhead : s.dir.HeadHealthy caKey caCert.notBefore) (hkept : s.dir.replacesCa = false) :
    s.Sound ipAddress := by
  intro headHost now hwithin
  obtain ⟨hfrom, -⟩ := hwithin caCert hcert
  rw [Site.call, ensureClusterTls_of_ca hkey hcert hkept, if_neg hhead.there]
  obtain ⟨⟨_, _, headKey, headCert⟩, generated⟩ := s
  obtain rfl : _ = some caKey := hkey
  obtain rfl : _ = some caCert := hcert
  by_cases hrenews : Dir.renewsHead ipAddress ⟨some caKey, some caCert, headKey, headCert⟩
      headHost now = true
  · rw [if_pos hrenews]
    exact ⟨rfl, _, _, _, _, rfl, matching_newHead hpaired _⟩
  · rw [if_neg hrenews]
    refine ⟨rfl, ?_⟩
    obtain ⟨hsome, hkeeps⟩ := Bool.or_eq_false_iff.1 (Bool.eq_false_iff.2 hrenews)
    obtain _ | headKey := headKey
    · cases hsome
    obtain ⟨headCert', hheadCert, hpair⟩ := hhead headKey rfl
    obtain rfl : headCert = some headCert' := hheadCert
    rw [Option.any_some] at hkeeps
    obtain ⟨hcovers, hlasts⟩ := Bool.or_eq_false_iff.1 hkeeps
    have hlasts := not_le.1 (of_decide_eq_false hlasts)
    rcases hpair with ⟨hown, hsigned⟩ | hstale
    · exact ⟨_, _, _, _, rfl, hpaired, hown, hsigned, by simpa using hcovers, hlasts⟩
    · -- A certificate that every start renews is not kept.
      omega

/-- A CA that is kept is the one that matches. -/
lemma paired_of_matches {caKey : Key} {caCert : CaCert} (hkey : s.dir.caKey = some caKey)
    (hcert : s.dir.caCert = some caCert) (hkept : s.dir.replacesCa = false)
    (hmatches : (s.dir.writeAll (s.call ipAddress headHost now).writes).Matches ipAddress headHost
      now) : caCert.publicKey = caKey := by
  obtain ⟨caKey', caCert', headKey', headCert', hd, hmatching⟩ := hmatches
  have hsame : (s.dir.writeAll (s.call ipAddress headHost now).writes).caKey = s.dir.caKey ∧
      (s.dir.writeAll (s.call ipAddress headHost now).writes).caCert = s.dir.caCert := by
    rw [Site.call, ensureClusterTls_of_ca hkey hcert hkept]
    split_ifs
    · exact ⟨rfl, rfl⟩
    · exact ⟨rfl, rfl⟩
    · exact ⟨rfl, rfl⟩
  rw [hd, hkey, hcert] at hsame
  obtain ⟨hkey', hcert'⟩ := hsame
  rw [← Option.some.inj hkey', ← Option.some.inj hcert']
  exact hmatching.ca

/-- **When the next start succeeds**, whatever its host and its time. -/
lemma Site.sound_iff_healthy (hwf : s.dir.WellFormed ipAddress s.generated) :
    s.Sound ipAddress ↔ s.dir.Healthy := by
  constructor
  · intro hsound
    by_cases hreplaces : s.dir.replacesCa = true
    · exact Or.inl hreplaces
    have hkept := Bool.eq_false_iff.2 hreplaces
    obtain ⟨caKey, hkey⟩ := Dir.exists_caKey hkept
    cases hcert : s.dir.caCert with
    | none =>
      obtain ⟨hraised, -⟩ := hsound [] 0 fun _ hmem => by rw [hcert] at hmem; cases hmem
      rw [Site.call, ensureClusterTls_of_caCert_none hkey hcert] at hraised
      cases hraised
    | some caCert =>
      have hwithin : s.Within caCert.notBefore := by
        intro certificate hmem
        obtain rfl := Option.some.inj (hcert.symm.trans hmem)
        exact ⟨le_rfl, hwf.valid _ hcert⟩
      refine Or.inr ⟨caKey, caCert, hkey, hcert, ?_, fun headKey hheadKey => ?_⟩
      · obtain ⟨-, hmatches⟩ := hsound [] caCert.notBefore hwithin
        exact paired_of_matches hkey hcert hkept hmatches
      · cases hheadCert : s.dir.headCert with
        | none =>
          obtain ⟨hraised, -⟩ := hsound [] caCert.notBefore hwithin
          rw [Site.call, ensureClusterTls_of_ca hkey hcert hkept,
            if_pos ⟨by rw [hheadKey]; rfl, hheadCert⟩] at hraised
          cases hraised
        | some headCert =>
          refine ⟨headCert, rfl, ?_⟩
          by_cases hstale : headCert.notAfter ≤ caCert.notBefore + year
          · exact Or.inr hstale
          · -- At the start of its validity, a start for a host of the certificate keeps it.
            obtain ⟨headHost, hcovers⟩ := hwf.covers _ hheadCert
            obtain ⟨-, hmatches⟩ := hsound headHost caCert.notBefore hwithin
            have hkeeps : s.dir.renewsHead ipAddress headHost caCert.notBefore = false := by
              rw [Dir.renewsHead, hheadKey, hheadCert, Option.any_some, hcovers,
                decide_eq_false hstale]
              rfl
            rw [Site.call, ensureClusterTls_of_ca hkey hcert hkept,
              if_neg (by rw [hheadCert]; simp), if_neg (by rw [hkeeps]; decide)] at hmatches
            obtain ⟨caKey', caCert', headKey', headCert', hd, hmatching⟩ := hmatches
            have hdir : s.dir = ⟨some caKey', some caCert', some headKey', some headCert'⟩ := hd
            rw [hdir] at hkey hheadKey hheadCert
            obtain rfl := Option.some.inj hkey
            obtain rfl := Option.some.inj hheadKey
            obtain rfl := Option.some.inj hheadCert
            exact Or.inl ⟨hmatching.head, hmatching.signed⟩
  · rintro (hreplaces | ⟨caKey, caCert, hkey, hcert, hpaired, hhead⟩)
    · exact Site.sound_of_replacesCa hreplaces
    · by_cases hreplaces : s.dir.replacesCa = true
      · exact Site.sound_of_replacesCa hreplaces
      · exact Site.sound_of_headHealthy hkey hcert hpaired hhead (Bool.eq_false_iff.2 hreplaces)

end Sound

/-! ### Starts that are cut off -/

/-- Whether a start that generates a CA may be cut off after so many writes. -/
def Dir.harmlessInCa (d : Dir ι) (now : ℤ) : ℕ → Bool
  -- The old certificate is there, with which the next start generates a CA again.
  | 1 => d.caCert.any fun certificate => !certificate.hasKeyIdentifier
  -- There is no head pair of an old CA, or one that every start with the new one renews.
  | 2 => d.headKey.isNone || d.staleFrom (now - minute)
  | 3 => d.staleFrom (now - minute)
  | _ => true

/-- Whether a start that keeps its CA may be cut off after so many writes. -/
def Dir.harmlessInHead (d : Dir ι) (headHost : Text) (now : ℤ) : ℕ → Bool
  | 1 => !d.renewsHead ipAddress headHost now ||
      d.caCert.any fun certificate => d.staleFrom certificate.notBefore
  | _ => true

def Site.harmlessAfter (s : Site ι) (headHost : Text) (now : ℤ) (count : ℕ) : Bool :=
  if s.dir.replacesCa then s.dir.harmlessInCa now count
  else s.dir.harmlessInHead ipAddress headHost now count

/-- A start that is not cut off, or at a harmless place. -/
def Site.Harmless (s : Site ι) (a : Start) : Prop :=
  ∀ count ∈ a.cut, s.harmlessAfter ipAddress a.headHost a.now count = true

instance (s : Site ι) (a : Start) : Decidable (s.Harmless ipAddress a) :=
  inferInstanceAs (Decidable (∀ count ∈ a.cut, _))

section Cuts

variable {ipAddress} {headHost : Text} {now : ℤ} {s t : Site ι} {d : Dir ι} {a : Start}

variable (ipAddress) in
/-- A write that leaves a directory well-formed. -/
inductive Write.Fine (generated : ℕ) : Write ι → Prop
  | caKey {key : Key} (h : key < generated) : Fine generated (.caKey key)
  | caCert {certificate : CaCert} (h : certificate.publicKey < generated)
      (hvalid : certificate.notBefore ≤ certificate.notAfter) : Fine generated (.caCert certificate)
  | headKey {key : Key} (h : key < generated) : Fine generated (.headKey key)
  | headCert {certificate : Leaf ι}
      (h : certificate.publicKey < generated ∧ certificate.issuerKey < generated)
      (hcovers : ∃ headHost, certificate.covers ipAddress headHost = true) :
      Fine generated (.headCert certificate)

lemma Dir.WellFormed.mono {generated generated' : ℕ} (h : d.WellFormed ipAddress generated)
    (hle : generated ≤ generated') : d.WellFormed ipAddress generated' where
  caKey_lt key hkey := (h.caKey_lt key hkey).trans_le hle
  caCert_lt certificate hcert := (h.caCert_lt certificate hcert).trans_le hle
  headKey_lt key hkey := (h.headKey_lt key hkey).trans_le hle
  headCert_lt certificate hcert :=
    ⟨(h.headCert_lt certificate hcert).1.trans_le hle, (h.headCert_lt certificate hcert).2.trans_le hle⟩
  valid := h.valid
  covers := h.covers

lemma Dir.WellFormed.write {generated : ℕ} {w : Write ι} (h : d.WellFormed ipAddress generated)
    (hw : w.Fine ipAddress generated) : (d.write w).WellFormed ipAddress generated := by
  cases hw with
  | caKey hlt =>
    exact { h with caKey_lt := fun key hkey => Option.some.inj hkey ▸ hlt }
  | caCert hlt hvalid =>
    exact { h with
      caCert_lt := fun certificate hcert => Option.some.inj hcert ▸ hlt
      valid := fun certificate hcert => Option.some.inj hcert ▸ hvalid }
  | headKey hlt =>
    exact { h with headKey_lt := fun key hkey => Option.some.inj hkey ▸ hlt }
  | headCert hlt hcovers =>
    exact { h with
      headCert_lt := fun certificate hcert => Option.some.inj hcert ▸ hlt
      covers := fun certificate hcert => Option.some.inj hcert ▸ hcovers }

lemma Dir.WellFormed.writeAll {generated : ℕ} {writes : List (Write ι)}
    (h : d.WellFormed ipAddress generated) (hall : ∀ w ∈ writes, w.Fine ipAddress generated) :
    (d.writeAll writes).WellFormed ipAddress generated := by
  induction writes generalizing d with
  | nil => exact h
  | cons w ws ih =>
    obtain ⟨hw, hws⟩ := List.forall_mem_cons.1 hall
    exact ih (h.write hw) hws

section Fine

variable {generated : ℕ}

lemma fine_newCa {key : Key} (hkey : key < generated) :
    ∀ w ∈ newCa key now, Write.Fine ipAddress generated w := by
  have hvalid : now - minute ≤ now + fiveYears := by
    have h : -minute ≤ fiveYears := by decide
    omega
  rw [newCa, List.forall_mem_cons, List.forall_mem_singleton]
  exact ⟨.caKey hkey, .caCert hkey hvalid⟩

lemma fine_newHead {key issuerKey : Key} (hkey : key < generated) (hissuer : issuerKey < generated) :
    ∀ w ∈ newHead ipAddress headHost key issuerKey now, Write.Fine ipAddress generated w := by
  rw [newHead, List.forall_mem_cons, List.forall_mem_singleton]
  exact ⟨.headKey hkey, .headCert ⟨hkey, hissuer⟩ ⟨headHost, covers_newLeaf key issuerKey⟩⟩

end Fine

/-- Whatever a start writes is fine. -/
lemma fine_call (hwf : s.dir.WellFormed ipAddress s.generated) :
    ∀ w ∈ (s.call ipAddress headHost now).writes, w.Fine ipAddress (s.generated + 2) := by
  have hnone : ∀ w ∈ ([] : List (Write ι)), w.Fine ipAddress (s.generated + 2) :=
    fun w hw => absurd hw List.not_mem_nil
  by_cases hreplaces : s.dir.replacesCa = true
  · rw [Site.call, ensureClusterTls_of_replacesCa hreplaces]
    intro w hw
    have hca : s.keys.ca < s.generated + 2 := Nat.lt_succ_of_lt (Nat.lt_succ_self _)
    rcases List.mem_append.1 hw with hw | hw
    · exact fine_newCa hca w hw
    · exact fine_newHead (Nat.lt_succ_self _) hca w hw
  · have hkept := Bool.eq_false_iff.2 hreplaces
    obtain ⟨caKey, hkey⟩ := Dir.exists_caKey hkept
    have hissuer : caKey < s.generated + 2 := Nat.lt_add_right 2 (hwf.caKey_lt _ hkey)
    rw [Site.call]
    cases hcert : s.dir.caCert with
    | none =>
      rw [ensureClusterTls_of_caCert_none hkey hcert]
      exact hnone
    | some caCert =>
      rw [ensureClusterTls_of_ca hkey hcert hkept]
      split_ifs
      · exact hnone
      · exact fine_newHead (Nat.lt_succ_self _) hissuer
      · exact hnone

/-- **A start** leaves a directory well-formed, wherever it is cut off. -/
lemma wellFormed_step (hwf : s.dir.WellFormed ipAddress s.generated)
    (hstep : s.step ipAddress a = some t) : t.dir.WellFormed ipAddress t.generated := by
  rw [Site.step] at hstep
  split_ifs at hstep
  obtain rfl := Option.some.inj hstep
  refine (hwf.mono (Nat.le_add_right _ 2)).writeAll fun w hw => ?_
  rw [Site.written] at hw
  cases hcut : a.cut with
  | none =>
    rw [hcut] at hw
    exact fine_call hwf w hw
  | some count =>
    rw [hcut] at hw
    exact fine_call hwf w (List.mem_of_mem_take hw)

omit [DecidableEq ι] in
/-- A CA that is kept. -/
lemma Dir.healthy_iff_of_kept {caKey : Key} {caCert : CaCert} (hkey : d.caKey = some caKey)
    (hcert : d.caCert = some caCert) (hkept : d.replacesCa = false) :
    d.Healthy ↔ caCert.publicKey = caKey ∧ d.HeadHealthy caKey caCert.notBefore := by
  constructor
  · rintro (hreplaces | ⟨caKey', caCert', hkey', hcert', hhealthy⟩)
    · rw [hkept] at hreplaces
      cases hreplaces
    · obtain rfl := Option.some.inj (hkey.symm.trans hkey')
      obtain rfl := Option.some.inj (hcert.symm.trans hcert')
      exact hhealthy
  · intro hhealthy
    exact Or.inr ⟨caKey, caCert, hkey, hcert, hhealthy⟩

omit [DecidableEq ι] in
/-- A head pair that does not match. -/
lemma Dir.headHealthy_iff_stale {caKey : Key} {notBefore : ℤ}
    (hne : ∀ headKey headCert, d.headKey = some headKey → d.headCert = some headCert →
      ¬(headCert.publicKey = headKey ∧ headCert.issuerKey = caKey)) :
    d.HeadHealthy caKey notBefore ↔ (d.headKey.isNone || d.staleFrom notBefore) = true := by
  obtain ⟨caKey', caCert', headKey, headCert⟩ := d
  rw [HeadHealthy, staleFrom]
  cases headKey with
  | none =>
    constructor
    · intro _
      rfl
    · intro _ headKey hkey
      cases hkey
  | some headKey =>
    rw [Option.isNone_some, Bool.false_or, Option.any_eq_true]
    constructor
    · intro hall
      obtain ⟨headCert', hcert, hpair | hstale⟩ := hall headKey rfl
      · exact absurd hpair (hne headKey headCert' rfl hcert)
      · exact ⟨headCert', hcert, decide_eq_true hstale⟩
    · rintro ⟨headCert', hcert, hstale⟩ _ _
      exact ⟨headCert', hcert, Or.inr (of_decide_eq_true hstale)⟩

omit [DecidableEq ι] in
/-- A CA key that the certificate is not for. -/
lemma Dir.healthy_newCaKey {key : Key} (hne : ∀ certificate, d.caCert = some certificate →
    certificate.publicKey ≠ key) : { d with caKey := some key }.Healthy ↔
      (d.caCert.any fun certificate => !certificate.hasKeyIdentifier) = true := by
  constructor
  · rintro (hreplaces | ⟨caKey, caCert, hkey, hcert, hpaired, -⟩)
    · exact hreplaces
    · obtain rfl := Option.some.inj hkey
      exact absurd hpaired (hne caCert hcert)
  · exact Or.inl

omit [DecidableEq ι] in
/-- A new CA and a new head pair, cut off. -/
lemma Dir.healthy_take_newCa {caKey headKey : Key}
    (hca : ∀ certificate, d.caCert = some certificate → certificate.publicKey ≠ caKey)
    (hhead : ∀ certificate, d.headCert = some certificate →
      certificate.publicKey ≠ headKey ∧ certificate.issuerKey ≠ caKey)
    (hhealthy : d.Healthy) (count : ℕ) :
    (d.writeAll ((newCa caKey now ++ newHead ipAddress headHost headKey caKey now).take
      count)).Healthy ↔ d.harmlessInCa now count = true := by
  match count with
  | 0 => exact iff_of_true hhealthy rfl
  | 1 => exact healthy_newCaKey hca
  | 2 =>
    refine (healthy_iff_of_kept rfl rfl rfl).trans ((and_iff_right rfl).trans ?_)
    exact headHealthy_iff_stale fun _ headCert _ hcert hpair => (hhead headCert hcert).2 hpair.2
  | 3 =>
    refine (healthy_iff_of_kept rfl rfl rfl).trans ((and_iff_right rfl).trans ?_)
    exact headHealthy_iff_stale fun _ headCert _ hcert hpair => (hhead headCert hcert).2 hpair.2
  | count + 4 =>
    have hcert : (⟨caKey, true, now - minute, now + fiveYears⟩ : CaCert).publicKey = caKey := rfl
    rw [List.take_of_length_le (Nat.le_add_left 4 count)]
    refine iff_of_true (Or.inr ⟨caKey, _, rfl, rfl, hcert, ?_⟩) rfl
    intro headKey' hkey
    obtain rfl := Option.some.inj hkey
    exact ⟨_, rfl, Or.inl ⟨rfl, rfl⟩⟩

/-- A new head pair, cut off. -/
lemma Dir.healthy_take_newHead {caKey headKey : Key} {caCert : CaCert}
    (hkey : d.caKey = some caKey) (hcert : d.caCert = some caCert) (hkept : d.replacesCa = false)
    (hhead : ∀ certificate, d.headCert = some certificate → certificate.publicKey ≠ headKey)
    (hhealthy : d.Healthy) (hrenews : d.renewsHead ipAddress headHost now = true) (count : ℕ) :
    (d.writeAll ((newHead ipAddress headHost headKey caKey now).take count)).Healthy ↔
      d.harmlessInHead ipAddress headHost now count = true := by
  have hpaired := ((healthy_iff_of_kept hkey hcert hkept).1 hhealthy).1
  match count with
  | 0 => exact iff_of_true hhealthy rfl
  | 1 =>
    refine (@healthy_iff_of_kept _ { d with headKey := some headKey } _ _ hkey hcert hkept).trans
      ((and_iff_right hpaired).trans ?_)
    rw [harmlessInHead, hrenews, hcert]
    exact headHealthy_iff_stale fun _ headCert hheadKey hheadCert hpair =>
      hhead headCert hheadCert (hpair.1.trans (Option.some.inj hheadKey).symm)
  | count + 2 =>
    rw [List.take_of_length_le (Nat.le_add_left 2 count)]
    refine iff_of_true (Or.inr ⟨caKey, caCert, hkey, hcert, hpaired, ?_⟩) rfl
    intro headKey' hheadKey
    obtain rfl := Option.some.inj hheadKey
    exact ⟨_, rfl, Or.inl ⟨rfl, rfl⟩⟩

/-- A start comes to at most four writes. -/
lemma length_call_le : (s.call ipAddress headHost now).writes.length ≤ 4 := by
  rw [Site.call]
  by_cases hreplaces : s.dir.replacesCa = true
  · rw [ensureClusterTls_of_replacesCa hreplaces]
    exact le_rfl
  · have hkept := Bool.eq_false_iff.2 hreplaces
    obtain ⟨caKey, hkey⟩ := Dir.exists_caKey hkept
    cases hcert : s.dir.caCert with
    | none =>
      rw [ensureClusterTls_of_caCert_none hkey hcert]
      exact Nat.zero_le 4
    | some caCert =>
      rw [ensureClusterTls_of_ca hkey hcert hkept]
      split_ifs
      · exact Nat.zero_le 4
      · exact Nat.le_add_right 2 2
      · exact Nat.zero_le 4

/-- A start that is not cut off is so after its last write. -/
lemma written_eq : s.written ipAddress a =
    (s.call ipAddress a.headHost a.now).writes.take (a.cut.getD 4) := by
  rw [Site.written]
  cases a.cut with
  | none => exact (List.take_of_length_le length_call_le).symm
  | some count => rfl

lemma harmless_iff : s.Harmless ipAddress a ↔
    s.harmlessAfter ipAddress a.headHost a.now (a.cut.getD 4) = true := by
  rw [Site.Harmless]
  cases a.cut with
  | none =>
    have hlast : s.harmlessAfter ipAddress a.headHost a.now 4 = true := by
      rw [Site.harmlessAfter]
      split_ifs
      · rfl
      · rfl
    exact iff_of_true (fun count hmem => by cases hmem) hlast
  | some count => simp

/-- **One start**: it leaves a directory healthy unless it is cut off at another than a harmless
place. -/
lemma healthy_step_iff (hwf : s.dir.WellFormed ipAddress s.generated) (hhealthy : s.dir.Healthy)
    (hstep : s.step ipAddress a = some t) : t.dir.Healthy ↔ s.Harmless ipAddress a := by
  rw [Site.step] at hstep
  split_ifs at hstep
  obtain rfl := Option.some.inj hstep
  rw [harmless_iff, written_eq, Site.harmlessAfter, Site.call]
  generalize a.cut.getD 4 = count
  by_cases hreplaces : s.dir.replacesCa = true
  · rw [ensureClusterTls_of_replacesCa hreplaces, if_pos hreplaces]
    refine Dir.healthy_take_newCa (fun certificate hcert => ?_) (fun certificate hcert => ?_)
      hhealthy count
    · exact (hwf.caCert_lt certificate hcert).ne
    · obtain ⟨hkey, hissuer⟩ := hwf.headCert_lt certificate hcert
      exact ⟨(Nat.lt_succ_of_lt hkey).ne, hissuer.ne⟩
  · have hkept := Bool.eq_false_iff.2 hreplaces
    rw [if_neg hreplaces]
    have hhealthy' := hhealthy
    rcases hhealthy' with hreplaces' | ⟨caKey, caCert, hkey, hcert, -, hhead⟩
    · exact absurd hreplaces' hreplaces
    rw [ensureClusterTls_of_ca hkey hcert hkept, if_neg hhead.there]
    by_cases hrenews : s.dir.renewsHead ipAddress a.headHost a.now = true
    · rw [if_pos hrenews]
      refine Dir.healthy_take_newHead hkey hcert hkept (fun certificate hcert => ?_) hhealthy
        hrenews count
      exact (Nat.lt_succ_of_lt (hwf.headCert_lt certificate hcert).1).ne
    · rw [if_neg hrenews, List.take_nil]
      refine iff_of_true hhealthy ?_
      rw [Dir.harmlessInHead.eq_def, Bool.eq_false_iff.2 hrenews]
      split
      · rfl
      · rfl

end Cuts

/-! ### Runs -/

/-- The starts on a directory that is empty, or complete at first. -/
def starts : System (Site ι) Start where
  init s := s.dir.WellFormed ipAddress s.generated ∧
    (s.dir = .empty ∨ ∃ headHost now, s.dir.Matches ipAddress headHost now)
  step := Site.step ipAddress

/-- A CA that is complete, with a key identifier. -/
structure Dir.CaComplete (d : Dir ι) (caKey : Key) (caCert : CaCert) : Prop where
  key : d.caKey = some caKey
  cert : d.caCert = some caCert
  paired : caCert.publicKey = caKey
  hasKeyIdentifier : caCert.hasKeyIdentifier = true

section Runs

variable {ipAddress} {s t : Site ι} {d : Dir ι} {a : Start}

omit [DecidableEq ι] in
lemma healthy_empty : (Dir.empty : Dir ι).Healthy := Or.inl rfl

lemma healthy_of_matches {headHost : Text} {now : ℤ} (h : d.Matches ipAddress headHost now) :
    d.Healthy := by
  obtain ⟨caKey, caCert, headKey, headCert, rfl, hmatching⟩ := h
  refine Or.inr ⟨caKey, caCert, rfl, rfl, hmatching.ca, fun headKey' hkey => ?_⟩
  obtain rfl := Option.some.inj hkey
  exact ⟨headCert, rfl, Or.inl ⟨hmatching.head, hmatching.signed⟩⟩

lemma healthy_of_init (hinit : (starts ipAddress).init s) :
    s.dir.WellFormed ipAddress s.generated ∧ s.dir.Healthy := by
  obtain ⟨hwf, hempty | ⟨headHost, now, hmatches⟩⟩ := hinit
  · exact ⟨hwf, hempty ▸ healthy_empty⟩
  · exact ⟨hwf, healthy_of_matches hmatches⟩

lemma wellFormed_run {as : List Start} (hinit : (starts ipAddress).init s)
    (hrun : (starts ipAddress).Run System.always s as t) :
    t.dir.WellFormed ipAddress t.generated := by
  have hpreserved : (starts ipAddress).Preserved System.always
      fun s => s.dir.WellFormed ipAddress s.generated :=
    fun _ _ _ hwf _ hstep => wellFormed_step hwf hstep
  exact hpreserved.run (healthy_of_init hinit).1 hrun

omit [DecidableEq ι] in
/-- A new head pair leaves the CA alone, wherever it is cut off. -/
lemma ca_take_newHead (headHost : Text) (headKey caKey : Key) (now : ℤ) (count : ℕ) :
    (d.writeAll ((newHead ipAddress headHost headKey caKey now).take count)).caKey = d.caKey ∧
      (d.writeAll ((newHead ipAddress headHost headKey caKey now).take count)).caCert =
        d.caCert := by
  match count with
  | 0 => exact ⟨rfl, rfl⟩
  | 1 => exact ⟨rfl, rfl⟩
  | count + 2 =>
    rw [List.take_of_length_le (Nat.le_add_left 2 count)]
    exact ⟨rfl, rfl⟩

/-- **A complete CA** is kept by every start. -/
lemma ca_step {caKey : Key} {caCert : CaCert} (hca : s.dir.CaComplete caKey caCert)
    (hstep : s.step ipAddress a = some t) : t.dir.CaComplete caKey caCert := by
  have hkept : s.dir.replacesCa = false := by
    rw [Dir.replacesCa, hca.key, hca.cert, Option.any_some, hca.hasKeyIdentifier]
    rfl
  rw [Site.step] at hstep
  split_ifs at hstep
  obtain rfl := Option.some.inj hstep
  have hsame : (s.dir.writeAll (s.written ipAddress a)).caKey = s.dir.caKey ∧
      (s.dir.writeAll (s.written ipAddress a)).caCert = s.dir.caCert := by
    rw [written_eq, Site.call, ensureClusterTls_of_ca hca.key hca.cert hkept]
    split_ifs
    · rw [List.take_nil]
      exact ⟨rfl, rfl⟩
    · exact ca_take_newHead _ _ _ _ _
    · rw [List.take_nil]
      exact ⟨rfl, rfl⟩
  exact ⟨hsame.1.trans hca.key, hsame.2.trans hca.cert, hca.paired, hca.hasKeyIdentifier⟩

/-- **When a head recovers**: after every part of a run of starts the next one that is not cut off
succeeds, whatever its host and its time, exactly when each start that is cut off is so at a
harmless place; and no start replaces a complete CA. -/
theorem recovers_iff {as : List Start} (hinit : (starts ipAddress).init s)
    (hrun : (starts ipAddress).Run System.always s as t) :
    ((∀ bs u, bs <+: as → (starts ipAddress).Run System.always s bs u → u.Sound ipAddress) ↔
      (starts ipAddress).Run (Site.Harmless ipAddress) s as t) ∧
    ∀ bs u v a caKey caCert, bs ++ [a] <+: as → (starts ipAddress).Run System.always s bs u →
      u.step ipAddress a = some v → u.dir.CaComplete caKey caCert →
        v.dir.CaComplete caKey caCert := by
  refine ⟨?_, fun bs u v a caKey caCert _ _ hstep hca => ca_step hca hstep⟩
  have halong : (∀ bs u, bs <+: as → (starts ipAddress).Run System.always s bs u →
      u.dir.WellFormed ipAddress u.generated ∧ u.dir.Healthy) ↔
        (starts ipAddress).Run (Site.Harmless ipAddress) s as t := by
    refine System.along_iff (healthy_of_init hinit) (fun s a t hs hstep => ?_) hrun
    rw [← healthy_step_iff hs.1 hs.2 hstep, and_iff_right (wellFormed_step hs.1 hstep)]
  rw [← halong]
  refine forall₂_congr fun bs u => forall₂_congr fun hbs hbefore => ?_
  have hwf := wellFormed_run hinit hbefore
  rw [Site.sound_iff_healthy hwf, and_iff_right hwf]

end Runs

/-! ### Three runs -/

section Examples

/-- Hosts that are names. -/
def named (_ : Text) : Option Empty := none

def noFiles : Site Empty := ⟨.empty, 0⟩

lemma init_noFiles : (starts named).init noFiles :=
  ⟨⟨nofun, nofun, nofun, nofun, nofun, nofun⟩, .inl rfl⟩

def head : Text := "head.internal".toList

def relay : Text := "relay.burla.dev".toList

/-- A start that is cut off between its two pairs, one that goes on, and one for another host that
is cut off before its first write. -/
def harmlessRun : List Start := [⟨head, 0, some 2⟩, ⟨head, 60, none⟩, ⟨relay, 120, some 0⟩]

theorem recovers_iff_harmless : (∃ t, (starts named).Run System.always noFiles harmlessRun t) ∧
    ∀ bs u, bs <+: harmlessRun → (starts named).Run System.always noFiles bs u →
      u.Sound named := by
  have hrun : (starts named).Run (Site.Harmless named) noFiles harmlessRun
      ((((starts named).guarded (Site.Harmless named)).exec noFiles harmlessRun).get
        (by decide +kernel)) :=
    System.run_of_exec_guarded (Option.some_get _).symm
  have halways := hrun.mono fun _ _ _ => trivial
  exact ⟨⟨_, halways⟩, (recovers_iff init_noFiles halways).1.2 hrun⟩

/-- A first start that is cut off after its first write. -/
def onlyKey : Site Empty := ⟨⟨some 0, none, none, none⟩, 2⟩

/-- A start for another host that is cut off after it has written the head key. -/
def twoHosts : List Start := [⟨head, 0, none⟩, ⟨relay, 60, some 1⟩]

/-- Cut off after the CA key, a head never comes up again; and cut off after the head key of another
host, the next start for the first host keeps the certificate of the old key. -/
theorem stays_broken :
    ((starts named).Run System.always noFiles [⟨head, 0, some 1⟩] onlyKey ∧
      ∀ headHost now, onlyKey.Within now ∧
        (onlyKey.call named headHost now).raised = some .fileNotFound) ∧
    ∃ u, (starts named).Run System.always noFiles twoHosts u ∧ u.Within 120 ∧
      (u.call named head 120).raised = none ∧
        ¬(u.dir.writeAll (u.call named head 120).writes).Matches named head 120 := by
  refine ⟨⟨.snoc .nil trivial rfl, fun headHost now => ⟨nofun, ?_⟩⟩, ?_⟩
  · rw [Site.call, ensureClusterTls_of_caCert_none rfl rfl]
  · refine ⟨(((starts named).guarded System.always).exec noFiles twoHosts).get (by decide +kernel),
      System.run_of_exec_guarded (Option.some_get _).symm, by decide +kernel, by decide +kernel, ?_⟩
    intro hmatches
    exact absurd hmatches.headKey_eq (by decide +kernel)

end Examples

end Burla.Tls
