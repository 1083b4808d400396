import DocumentProof.Proofs.Identity
import DocumentProof.Proofs.Proof.Verdict

/-!
# The account that a signature is checked against

Of an identifier a check of a signature reads the account alone, and this up to the case of its
letters (`Suite.verifySignature_text_iff`). So identifiers that name one account are as good as each
other (`account_of_identifier`).
-/

namespace DocumentProof

namespace MethodId

/-- The identifiers name the same accounts. -/
def SameAccount (id id' : MethodId) : Prop :=
  id.bareAddress.toList.map Char.toLower = id'.bareAddress.toList.map Char.toLower

theorem SameAccount.names_iff {id id' : MethodId} (h : id.SameAccount id') {account : String} :
    id.Names account ↔ id'.Names account := by
  unfold Names
  rw [h]

/-- A text without blanks is an identifier, and names the account among its parts. -/
theorem exists_ofText_toChars {p : Parts} (hne : p.toChars ≠ [])
    (hblank : ∀ c ∈ p.toChars, Text.isBlank c = false) :
    ∃ id, ofText (String.ofList p.toChars) = .ok id ∧ id.bareAddress = String.ofList p.account := by
  have hvalid : isValid (String.ofList p.toChars) = true := by
    refine (isValid_iff _).mpr ⟨fun h => hne ?_, ?_⟩
    · rw [← String.toList_ofList (l := p.toChars), h]
      rfl
    · rwa [String.toList_ofList]
  refine ⟨⟨_, (isValid_iff _).mp hvalid⟩, dif_pos hvalid, ?_⟩
  rw [bareAddress, String.toList_ofList, bareChars_toChars]

end MethodId

namespace Suite

variable {s : Suite} {t : TypedData} {signature account : String} {id id' : MethodId}

theorem verifySignature_text_iff : s.verifySignature t signature id.text = .ok account ↔
    s.recoverer t signature = .ok account ∧ id.Names account := by
  rw [verifySignature_eq_ok_iff, id.ofText_text]
  simp only [Except.ok.injEq, accountsMatch_iff, exists_eq_left']

/-- **An identifier names the account among its parts,** and a signature is checked against it
alone: identifiers with the same account, up to the case of its letters, give the same account or
none. -/
theorem account_of_identifier :
    (∀ p : MethodId.Parts, p.toChars ≠ [] → (∀ c ∈ p.toChars, Text.isBlank c = false) →
      ∃ id, MethodId.ofText (String.ofList p.toChars) = .ok id ∧
        id.bareAddress = String.ofList p.account) ∧
    ∀ (s : Suite) (t : TypedData) (signature : String) (id id' : MethodId), id.SameAccount id' →
      ∀ account, s.verifySignature t signature id.text = .ok account ↔
        s.verifySignature t signature id'.text = .ok account := by
  refine ⟨fun p => MethodId.exists_ofText_toChars, fun s t signature id id' hsame account => ?_⟩
  rw [verifySignature_text_iff, verifySignature_text_iff, hsame.names_iff]

/-! ### Accounts beside marks -/

/-- An account with other accounts in the query and in the fragment after it. -/
def crowded : MethodId.Parts where
  segments := some ["x".toList]
  account := "0xA".toList
  query := some "q=did:0xB?:0xB".toList
  fragment := some "did:0xC#0xC?:0xC".toList
  segments_plain := by
    rintro _ ⟨⟩
    exact List.forall_mem_singleton.mpr (List.all_iff_forall_prop.mp (by decide))
  account_plain := List.all_iff_forall_prop.mp (by decide)
  query_plain := by
    rintro _ ⟨⟩
    exact List.all_iff_forall_prop.mp (by decide)

/-- The text of these parts. -/
def crowdedId : MethodId :=
  ⟨"did:x:0xA?q=did:0xB?:0xB#did:0xC#0xC?:0xC", (MethodId.isValid_iff _).mp (by decide)⟩

/-- The account alone, in lower case. -/
def lowerId : MethodId := ⟨"0xa", (MethodId.isValid_iff _).mp (by decide)⟩

/-- A suite that recovers one account from every signature. -/
def recoversA : Suite := ⟨none, fun _ _ => .ok "0xA", none, none⟩

def noData : TypedData := TypedData.make Domain.empty KeyMap.empty Derive.rootType .null

theorem account_of_identifier_crowded :
    (∃ id, MethodId.ofText crowdedId.text = .ok id ∧ id.bareAddress = "0xA") ∧
      crowdedId.SameAccount lowerId ∧
      recoversA.verifySignature noData "" crowdedId.text = .ok "0xA" ∧
      recoversA.verifySignature noData "" lowerId.text = .ok "0xA" := by
  have hsame : crowdedId.SameAccount lowerId := by
    unfold MethodId.SameAccount
    decide
  have hcrowded : recoversA.verifySignature noData "" crowdedId.text = .ok "0xA" := by
    rw [verifySignature_text_iff]
    exact ⟨rfl, by decide, by decide⟩
  have hblank : ∀ c ∈ crowded.toChars, Text.isBlank c = false :=
    List.all_iff_forall_prop.mp (by decide)
  exact ⟨account_of_identifier.1 crowded (by decide) hblank, hsame, hcrowded,
    (account_of_identifier.2 recoversA noData "" crowdedId lowerId hsame "0xA").mp hcrowded⟩

end Suite

end DocumentProof
