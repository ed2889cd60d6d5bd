import Perdition.CertificateName
import Perdition.Verif.Rightmost

/-!
# Which names of certificates match

A name with an asterisk in front of a domain matches a name that has no label there at all, and a name
that cannot be read hides those behind it. Otherwise a certificate is accepted for the names that it has.
-/
namespace Perdition

/-! ## Comparing -/

/-- The name is the key, or an asterisk and the domain behind the first label of the key. -/
def Certifies (key : CString) (name : List Byte) : Prop :=
  name = key.content ∨ ∃ label domain, label ≠ [] ∧ dot ∉ label ∧ domain ≠ [] ∧
    name = bytes "*." ++ domain ∧ key.content = label ++ dot :: domain

/-- The key is the domain with nothing but the dot before it. -/
def NoLabel (key : CString) (name : List Byte) : Prop :=
  ∃ domain, domain ≠ [] ∧ name = bytes "*." ++ domain ∧ key.content = dot :: domain

theorem certifies_or_noLabel (key : CString) (name : List Byte) :
    Certifies key name ∨ NoLabel key name ↔ name = key.content ∨
      ∃ label domain, dot ∉ label ∧ domain ≠ [] ∧ name = bytes "*." ++ domain ∧
        key.content = label ++ dot :: domain := by
  constructor
  · rintro ((same | ⟨label, domain, _, plain, some_, wild, whole⟩) | ⟨domain, some_, wild, whole⟩)
    · exact .inl same
    · exact .inr ⟨label, domain, plain, some_, wild, whole⟩
    · exact .inr ⟨[], domain, List.not_mem_nil, some_, wild, whole⟩
  · rintro (same | ⟨label, domain, plain, some_, wild, whole⟩)
    · exact .inl (.inl same)
    · by_cases none_ : label = []
      · exact .inr ⟨domain, some_, wild, by rw [whole, none_]; rfl⟩
      · exact .inl (.inr ⟨label, domain, none_, plain, some_, wild, whole⟩)

/-- Behind an asterisk the key is compared from its first dot on. -/
theorem compareDomain_iff (key : CString) {name domain : List Byte} (wild : name = bytes "*." ++ domain) :
    (match key.content.idxOf? dot with
      | none => (-2 : Int)
      | some place =>
        if (key.content.drop place).length = name.length - 1 ∧
          key.content.drop place = name.drop 1 then 0 else -2) = 0 ↔
      ∃ label, dot ∉ label ∧ key.content = label ++ dot :: domain := by
  by_cases member : dot ∈ key.content
  · have ⟨label, rest, split_, plain⟩ := List.eq_append_cons_of_mem member
    have place : key.content.idxOf? dot = some label.length := by rw [split_, idxOf?_first plain]
    have behind : key.content.drop label.length = dot :: rest := by rw [split_, List.drop_left]
    have tail : name.drop 1 = dot :: domain := by rw [wild]; rfl
    rw [place]
    dsimp only
    rw [behind, tail]
    by_cases equal : rest = domain
    · have length : (dot :: rest).length = name.length - 1 := by
        rw [wild, equal, List.length_append, List.length_cons]
        change _ = 2 + _ - 1
        omega
      rw [if_pos ⟨length, congrArg _ equal⟩]
      exact iff_of_true rfl ⟨label, plain, equal ▸ split_⟩
    · rw [if_neg fun both => equal (List.cons.inj both.2).2]
      apply iff_of_false (by decide)
      intro ⟨label', plain', split'⟩
      exact equal (first_unique plain plain' (split_.symm.trans split')).2
  · rw [List.idxOf?_eq_none_iff.mpr member]
    apply iff_of_false (show ¬ (-2 : Int) = 0 by decide)
    intro ⟨label, _, split_⟩
    exact member (by rw [split_]; simp)

/-- What `__perdition_ssl_compare_key` accepts. -/
theorem perditionSslCompareKey_iff (key : CString) (name : List Byte) :
    perditionSslCompareKey key name = 0 ↔ Certifies key name ∨ NoLabel key name := by
  rw [certifies_or_noLabel, perditionSslCompareKey]
  by_cases same : key.length = name.length ∧ key.content = name
  · rw [if_pos same]
    exact iff_of_true rfl (.inl same.2.symm)
  have other : ¬ name = key.content := fun equal => same ⟨congrArg List.length equal.symm, equal.symm⟩
  rw [if_neg same]
  by_cases short : name.length < 3
  · rw [if_pos short]
    apply iff_of_false (by decide)
    rintro (equal | ⟨label, domain, _, some_, wild, _⟩)
    · exact other equal
    · have long := List.length_pos_iff.mpr some_
      rw [wild, List.length_append] at short
      change 2 + _ < 3 at short
      omega
  rw [if_neg short]
  by_cases star : name.take 2 = bytes "*."
  · have wild : name = bytes "*." ++ name.drop 2 := by rw [← star, List.take_append_drop]
    have some_ : name.drop 2 ≠ [] := by
      rw [Ne, List.drop_eq_nil_iff]
      omega
    rw [if_pos star]
    refine (compareDomain_iff key wild).trans ?_
    constructor
    · intro ⟨label, plain, split_⟩
      exact .inr ⟨label, name.drop 2, plain, some_, wild, split_⟩
    · rintro (equal | ⟨label, domain, plain, _, wild', split_⟩)
      · exact absurd equal other
      · rw [List.append_cancel_left (wild.symm.trans wild')]
        exact ⟨label, plain, split_⟩
  · rw [if_neg star]
    apply iff_of_false (by decide)
    rintro (equal | ⟨label, domain, _, _, wild, _⟩)
    · exact other equal
    · rw [wild] at star
      exact star rfl

/-- A name with a NUL is that of no key. -/
theorem perditionSslCompareKey_nul (key : CString) {name : List Byte} (nul : 0 ∈ name) :
    perditionSslCompareKey key name ≠ 0 := by
  have clean := key.noNul
  intro matches_
  rcases (perditionSslCompareKey_iff key name).mp matches_ with
    (same | ⟨label, domain, _, _, _, wild, whole⟩) | ⟨domain, _, wild, whole⟩
  · exact clean (same ▸ nul)
  · rw [whole] at clean
    rw [wild] at nul
    rcases List.mem_append.mp nul with star | inside
    · exact absurd star (by decide)
    · exact clean (by simp [inside])
  · rw [whole] at clean
    rw [wild] at nul
    rcases List.mem_append.mp nul with star | inside
    · exact absurd star (by decide)
    · exact clean (by simp [inside])

/-! ## The names of a certificate -/

/-- The bytes of a common name. -/
def CommonName.content : CommonName → Option (List Byte)
  | data content => some content
  | _ => none

/-- The bytes of a DNS name. -/
def GeneralName.content : GeneralName → Option (List Byte)
  | dns printed _ => some printed
  | _ => none

/-- The common names and the DNS names. -/
def Certificate.names (cert : Certificate) : List (List Byte) :=
  (cert.subject.getD []).filterMap CommonName.content ++
    (cert.altNames.getD []).filterMap GeneralName.content

/-- The common names up to the first that cannot be read, and whether there is none. -/
def readCommonNames : List CommonName → List (List Byte) × Bool
  | [] => ([], true)
  | .data content :: rest => (content :: (readCommonNames rest).1, (readCommonNames rest).2)
  | _ :: _ => ([], false)

/-- The DNS names up to the first that cannot be read. -/
def readAltNames : List GeneralName → List (List Byte)
  | [] => []
  | .missing :: _ => []
  | .other :: rest => readAltNames rest
  | .dns printed reset :: rest => printed :: if reset then readAltNames rest else []

/-- The names up to the first that cannot be read. The DNS names come after the common names. -/
def Certificate.readable (cert : Certificate) : List (List Byte) :=
  match cert.subject with
  | none => []
  | some subject => (readCommonNames subject).1 ++
      if (readCommonNames subject).2 ∧ cert.bioNew ∧ cert.bioFree then
        readAltNames (cert.altNames.getD [])
      else []

theorem readCommonNames_subset (names : List CommonName) :
    (readCommonNames names).1 ⊆ names.filterMap CommonName.content := by
  induction names with
  | nil => exact List.Subset.refl _
  | cons name rest ih =>
    cases name with
    | noEntry => exact List.nil_subset _
    | noData => exact List.nil_subset _
    | data content => exact List.cons_subset_cons content ih

theorem readAltNames_subset (names : List GeneralName) :
    readAltNames names ⊆ names.filterMap GeneralName.content := by
  induction names with
  | nil => exact List.Subset.refl _
  | cons name rest ih =>
    cases name with
    | missing => exact List.nil_subset _
    | other => exact ih
    | dns printed reset =>
      apply List.cons_subset_cons printed
      cases reset with
      | false => exact List.nil_subset _
      | true => exact ih

/-- What is read are names of the certificate. -/
theorem Certificate.readable_subset (cert : Certificate) : cert.readable ⊆ cert.names := by
  unfold readable names
  cases cert.subject with
  | none => exact List.nil_subset _
  | some subject =>
    apply List.append_subset.mpr
    constructor
    · exact fun name member => List.mem_append_left _ (readCommonNames_subset subject member)
    · split
      · exact fun name member => List.mem_append_right _ (readAltNames_subset _ member)
      · exact List.nil_subset _

/-! ## The loops -/

variable {key : CString}

/-- A name among these is accepted. -/
def AcceptedAmong (key : CString) (names : List (List Byte)) : Prop :=
  ∃ name ∈ names, perditionSslCompareKey key name = 0

theorem acceptedAmong_cons {name : List Byte} {rest : List (List Byte)}
    (differs : perditionSslCompareKey key name ≠ 0) :
    AcceptedAmong key (name :: rest) ↔ AcceptedAmong key rest := by
  simp only [AcceptedAmong, List.mem_cons, exists_eq_or_imp]
  exact or_iff_right differs

theorem acceptedAmong_nil : ¬ AcceptedAmong key [] := by simp [AcceptedAmong]

/-- The loop over the common names. -/
theorem checkCommonNames_cases (names : List CommonName) :
    AcceptedAmong key (readCommonNames names).1 ∧ checkCommonNames key names = 0 ∨
    ¬ AcceptedAmong key (readCommonNames names).1 ∧
      checkCommonNames key names = if (readCommonNames names).2 then -2 else -1 := by
  induction names with
  | nil => exact .inr ⟨acceptedAmong_nil, rfl⟩
  | cons name rest ih =>
    cases name with
    | noEntry => exact .inr ⟨acceptedAmong_nil, rfl⟩
    | noData => exact .inr ⟨acceptedAmong_nil, rfl⟩
    | data content =>
      rw [checkCommonNames, readCommonNames]
      by_cases same : perditionSslCompareKey key content = 0
      · exact .inl ⟨⟨content, List.mem_cons_self, same⟩, if_pos same⟩
      · rw [if_neg same, acceptedAmong_cons same]
        exact ih

/-- The loop over the alternative names. -/
theorem checkAltSubjects_iff (names : List GeneralName) :
    checkAltSubjects key names = 0 ↔ AcceptedAmong key (readAltNames names) := by
  induction names with
  | nil => exact iff_of_false (by rw [checkAltSubjects]; decide) acceptedAmong_nil
  | cons name rest ih =>
    cases name with
    | missing => exact iff_of_false (by rw [checkAltSubjects]; decide) acceptedAmong_nil
    | other => exact ih
    | dns printed reset =>
      rw [checkAltSubjects, readAltNames]
      by_cases same : perditionSslCompareKey key printed = 0
      · rw [if_pos same]
        exact iff_of_true rfl ⟨printed, List.mem_cons_self, same⟩
      · rw [if_neg same, acceptedAmong_cons same]
        cases reset with
        | false => exact iff_of_false (show ¬ (-1 : Int) = 0 by decide) acceptedAmong_nil
        | true => exact ih

theorem perditionSslCheckAltSubject_iff (cert : Certificate) :
    perditionSslCheckAltSubject cert key = 0 ↔ cert.bioNew ∧ cert.bioFree ∧
      AcceptedAmong key (readAltNames (cert.altNames.getD [])) := by
  have refused : ¬ (-1 : Int) = 0 := by decide
  rw [perditionSslCheckAltSubject]
  cases cert.altNames with
  | none => exact iff_of_false refused fun ⟨_, _, accepted⟩ => acceptedAmong_nil accepted
  | some names =>
    dsimp only
    cases cert.bioNew with
    | false => exact iff_of_false refused fun ⟨new, _⟩ => Bool.false_ne_true new
    | true =>
      cases cert.bioFree with
      | false => exact iff_of_false refused fun ⟨_, free, _⟩ => Bool.false_ne_true free
      | true =>
        apply (checkAltSubjects_iff names).trans
        simp only [Option.getD_some, true_and]

/-- The alternative names are looked at where the common names do not match. -/
theorem perditionSslCheckName_zero {idnaToAscii : CString → Option CString} (cert : Certificate)
    {name ascii : CString} (converted : idnaToAscii name = some ascii) :
    perditionSslCheckName false idnaToAscii (some cert) (some name) = 0 ↔
      perditionSslCheckCommonName cert ascii = 0 ∨
        perditionSslCheckCommonName cert ascii ≠ -1 ∧ perditionSslCheckAltSubject cert ascii = 0 := by
  unfold perditionSslCheckName
  dsimp only
  rw [converted]
  dsimp only
  generalize perditionSslCheckCommonName cert ascii = common
  generalize perditionSslCheckAltSubject cert ascii = alternative
  by_cases same : common = 0
  · rw [if_pos same]
    exact iff_of_true rfl (.inl same)
  rw [if_neg same, or_iff_right same]
  by_cases failed : common = -1
  · rw [if_pos failed]
    exact iff_of_false (by decide) fun both => both.1 failed
  rw [if_neg failed, and_iff_right failed]
  by_cases found : alternative = 0
  · rw [if_pos found]
    exact iff_of_true rfl found
  · rw [if_neg found]
    apply iff_of_false _ found
    split <;> decide

/-- The certificate is accepted for a name that is read before any that cannot be. -/
theorem perditionSslCheckName_iff {idnaToAscii : CString → Option CString} (cert : Certificate)
    {name ascii : CString} (converted : idnaToAscii name = some ascii) :
    perditionSslCheckName false idnaToAscii (some cert) (some name) = 0 ↔
      AcceptedAmong ascii cert.readable := by
  rw [perditionSslCheckName_zero cert converted, perditionSslCheckAltSubject_iff,
    perditionSslCheckCommonName, Certificate.readable]
  cases cert.subject with
  | none =>
    apply iff_of_false _ acceptedAmong_nil
    rintro (same | ⟨other, _⟩)
    · exact absurd (show (-1 : Int) = 0 from same) (by decide)
    · exact other rfl
  | some names =>
    dsimp only
    have parts (others : List (List Byte)) : AcceptedAmong ascii ((readCommonNames names).1 ++ others) ↔
        AcceptedAmong ascii (readCommonNames names).1 ∨ AcceptedAmong ascii others := by
      simp only [AcceptedAmong, List.mem_append, or_and_right, exists_or]
    rw [parts]
    rcases checkCommonNames_cases names with ⟨accepted, status⟩ | ⟨refused, status⟩
    · exact iff_of_true (.inl status) (.inl accepted)
    rw [status, or_iff_right refused]
    cases (readCommonNames names).2 with
    | false =>
      apply iff_of_false _ (by simpa using acceptedAmong_nil)
      simp
    | true =>
      rw [if_pos rfl]
      by_cases both : cert.bioNew = true ∧ cert.bioFree = true
      · simp [both.1, both.2]
      · rw [if_neg fun all => both all.2]
        apply iff_of_false _ acceptedAmong_nil
        rintro (same | ⟨_, new, free, _⟩)
        · exact absurd same (by decide)
        · exact both ⟨new, free⟩

/-! ## What is accepted -/

/-- The certificate is accepted exactly where it has a name that certifies the key, and a name with a NUL
matches no key. -/
structure NameChecked (idnaToAscii : CString → Option CString) (cert : Certificate) (key : CString) :
    Prop where
  /-- When it is accepted. -/
  accepted : perditionSslCheckName false idnaToAscii (some cert) (some key) = 0 ↔
    ∃ ascii, idnaToAscii key = some ascii ∧ ∃ name ∈ cert.names, Certifies ascii name
  /-- Names with a NUL. -/
  nul : ∀ ascii, idnaToAscii key = some ascii → ∀ name, 0 ∈ name →
    perditionSslCompareKey ascii name ≠ 0

/-- A name that certifies the key is not hidden by one that cannot be read, and one that would certify it
with a label in front is not read unless another certifies it. -/
structure NamesSettled (cert : Certificate) (ascii : CString) : Prop where
  /-- What certifies the key is read, or another name that the code takes for it. -/
  seen : (∃ name ∈ cert.names, Certifies ascii name) →
    ∃ name ∈ cert.readable, Certifies ascii name ∨ NoLabel ascii name
  /-- A key that begins with the dot is certified by its own name. -/
  labelled : (∃ name ∈ cert.readable, NoLabel ascii name) → ∃ name ∈ cert.names, Certifies ascii name

/-- `__perdition_ssl_check_name` accepts the certificates that have a name for the key exactly where
these can be read and the key does not begin with the dot of a name with an asterisk. -/
theorem perditionSslCheckName_names_iff (idnaToAscii : CString → Option CString) (cert : Certificate)
    (key : CString) :
    NameChecked idnaToAscii cert key ↔
      ∀ ascii, idnaToAscii key = some ascii → NamesSettled cert ascii := by
  have taken {ascii : CString} (converted : idnaToAscii key = some ascii) :
      perditionSslCheckName false idnaToAscii (some cert) (some key) = 0 ↔
        ∃ name ∈ cert.readable, Certifies ascii name ∨ NoLabel ascii name := by
    rw [perditionSslCheckName_iff cert converted, AcceptedAmong]
    simp only [perditionSslCompareKey_iff]
  constructor
  · intro checked ascii converted
    have accepted := checked.accepted
    rw [taken converted] at accepted
    constructor
    · exact fun certified => accepted.mpr ⟨ascii, converted, certified⟩
    · intro ⟨name, member, bare⟩
      have ⟨ascii', converted', certified⟩ := accepted.mp ⟨name, member, .inr bare⟩
      rw [converted, Option.some.injEq] at converted'
      exact converted' ▸ certified
  · intro settled
    refine ⟨?_, fun ascii _ name nul => perditionSslCompareKey_nul ascii nul⟩
    cases converted : idnaToAscii key with
    | none =>
      apply iff_of_false
      · unfold perditionSslCheckName
        dsimp only
        rw [converted]
        exact (show ¬ (-1 : Int) = 0 by decide)
      · intro ⟨ascii, none_, _⟩
        cases none_
    | some ascii =>
      have ⟨seen, labelled⟩ := settled ascii converted
      rw [taken converted]
      constructor
      · rintro ⟨name, member, certified | bare⟩
        · exact ⟨ascii, rfl, name, cert.readable_subset member, certified⟩
        · exact ⟨ascii, rfl, labelled ⟨name, member, bare⟩⟩
      · rintro ⟨ascii', same, certified⟩
        cases same
        exact seen certified

/-- A certificate for `*.example.org` is accepted for the key `.example.org`. -/
theorem perditionSslCheckName_bare :
    perditionSslCheckName false some
        (some ⟨some [.data (bytes "*.example.org")], none, true, true⟩) (some (lit ".example.org")) = 0 ∧
      ¬ NameChecked some ⟨some [.data (bytes "*.example.org")], none, true, true⟩
        (lit ".example.org") := by
  refine ⟨by decide +kernel, fun checked => ?_⟩
  have ⟨ascii, same, name, member, certified⟩ := checked.accepted.mp (by decide +kernel)
  cases same
  have only : name = bytes "*.example.org" := by simpa [Certificate.names, CommonName.content] using member
  rw [only] at certified
  rcases certified with equal | ⟨label, domain, some_, plain, _, _, whole⟩
  · exact absurd equal (by decide)
  · -- the label would begin with the dot
    cases label with
    | nil => exact some_ rfl
    | cons b label =>
      have first : (lit ".example.org").content = dot :: bytes "example.org" := by decide
      rw [first] at whole
      exact plain ((List.cons.inj whole).1 ▸ List.mem_cons_self)

end Perdition
