import GolombSet.Filter.Header
import GolombSet.Proofs.Filter.Wire
import Mathlib.Data.List.Forall2

set_option autoImplicit false

namespace GolombSet

theorem Digest.eq_of_bytes {left right : Digest} (same : left.bytes = right.bytes) :
    left = right := by
  cases left
  cases right
  cases same
  rfl

namespace Filter

section

variable (digest : Bytes → Digest)

def headerBy (filter : Filter) (previous : Digest) : Digest :=
  digest ((digest filter.toCounted).bytes ++ previous.bytes)

def headersBy (start : Digest) : List Filter → List Digest
  | [] => []
  | filter :: filters =>
    headerBy digest filter start :: headersBy (headerBy digest filter start) filters

def lastBy (start : Digest) (filters : List Filter) : Digest :=
  filters.foldl (fun previous filter => headerBy digest filter previous) start

/-- All byte strings that are hashed for the headers of a chain, in order. -/
def hashed (start : Digest) : List Filter → List Bytes
  | [] => []
  | filter :: filters =>
    filter.toCounted :: ((digest filter.toCounted).bytes ++ start.bytes) ::
      hashed (headerBy digest filter start) filters

/-- Two byte strings at the same place of two lists are different and have the same digest. -/
def Collide (left right : List Bytes) : Prop :=
  ∃ a b, (a, b) ∈ left.zip right ∧ a ≠ b ∧ digest a = digest b

end

/-- Equal but for their parameters. -/
def SameContent (filter other : Filter) : Prop :=
  filter.count = other.count ∧ filter.data = other.data

variable {digest : Bytes → Digest} {start start' : Digest} {filter filter' : Filter}
  {filters filters' : List Filter}

theorem headers_eq (start : Digest) (filters : List Filter) :
    headers start filters = headersBy Digest.doubleSha256 start filters := by
  induction filters generalizing start with
  | nil => rfl
  | cons filter filters ih =>
    simp only [headers, headersBy, ih]
    rfl

theorem getLastD_headersBy (start : Digest) (filters : List Filter) :
    (headersBy digest start filters).getLastD start = lastBy digest start filters := by
  induction filters generalizing start with
  | nil => rfl
  | cons filter filters ih =>
    simpa only [headersBy, lastBy, List.getLastD_cons, List.foldl_cons] using ih _

theorem toCounted_eq_iff : filter.toCounted = filter'.toCounted ↔ SameContent filter filter' := by
  constructor
  · intro same
    have decoded := decodeCount_encodeCount_append filter.count filter.data
    rw [← toCounted, same, toCounted, decodeCount_encodeCount_append] at decoded
    obtain ⟨count, data⟩ := Prod.mk.inj (Except.ok.inj decoded)
    exact ⟨count.symm, data.symm⟩
  · rintro ⟨count, data⟩
    rw [toCounted, toCounted, count, data]

theorem headersBy_congr (same : List.Forall₂ SameContent filters filters') (start : Digest) :
    headersBy digest start filters = headersBy digest start filters' := by
  induction same generalizing start with
  | nil => rfl
  | cons first later ih =>
    simp only [headersBy, headerBy, toCounted_eq_iff.mpr first]
    rw [ih]

theorem eq_or_collide {a b : Bytes} (same : digest a = digest b) :
    a = b ∨ Collide digest [a] [b] := by
  by_cases equal : a = b
  · exact .inl equal
  · exact .inr ⟨a, b, by simp, equal, same⟩

theorem headerBy_commits (same : headerBy digest filter start = headerBy digest filter' start') :
    (start = start' ∧ SameContent filter filter') ∨
      Collide digest (hashed digest start [filter]) (hashed digest start' [filter']) := by
  rcases eq_or_collide same with joined | ⟨a, b, member, different, equal⟩
  · have size :
        (digest filter.toCounted).bytes.length = (digest filter'.toCounted).bytes.length := by
      rw [Digest.length_bytes, Digest.length_bytes]
    obtain ⟨first, second⟩ := List.append_inj joined size
    rcases eq_or_collide (Digest.eq_of_bytes first) with content | ⟨a, b, member, different, equal⟩
    · exact .inl ⟨Digest.eq_of_bytes second, toCounted_eq_iff.mp content⟩
    · refine .inr ⟨a, b, ?_, different, equal⟩
      simp_all [hashed]
  · refine .inr ⟨a, b, ?_, different, equal⟩
    simp_all [hashed]

theorem lastBy_commits (length : filters.length = filters'.length)
    (same : lastBy digest start filters = lastBy digest start' filters') :
    (start = start' ∧ List.Forall₂ SameContent filters filters') ∨
      Collide digest (hashed digest start filters) (hashed digest start' filters') := by
  induction filters generalizing filters' start start' with
  | nil =>
    obtain rfl := List.length_eq_zero_iff.mp length.symm
    exact .inl ⟨same, .nil⟩
  | cons filter filters ih =>
    obtain ⟨filter', filters', rfl⟩ := List.exists_cons_of_length_eq_add_one length.symm
    -- The end of the chain gives its second header, and that gives the first link.
    rcases ih (Nat.succ_inj.mp length) same with ⟨headers, later⟩ | ⟨a, b, member, collision⟩
    · rcases headerBy_commits headers with ⟨previous, content⟩ | ⟨a, b, member, collision⟩
      · exact .inl ⟨previous, .cons content later⟩
      · refine .inr ⟨a, b, ?_, collision⟩
        simp only [hashed, List.zip_cons_cons, List.zip_nil_right, List.mem_cons] at member ⊢
        tauto
    · refine .inr ⟨a, b, ?_, collision⟩
      exact List.mem_cons_of_mem _ (List.mem_cons_of_mem _ member)

theorem headers_commit (digest : Bytes → Digest) (start start' : Digest)
    (filters filters' : List Filter) :
    headers start filters = headersBy Digest.doubleSha256 start filters ∧
      (headersBy digest start filters).getLastD start = lastBy digest start filters ∧
      (filters.length = filters'.length →
        lastBy digest start filters = lastBy digest start' filters' →
        (start = start' ∧ List.Forall₂ SameContent filters filters') ∨
          Collide digest (hashed digest start filters) (hashed digest start' filters')) ∧
      (List.Forall₂ SameContent filters filters' →
        headersBy digest start filters = headersBy digest start filters') := by
  refine ⟨headers_eq start filters, getLastD_headersBy start filters, ?_, ?_⟩
  · exact fun length same => lastBy_commits length same
  · exact fun same => headersBy_congr same start

theorem headers_commit_other_parameter :
    let low : Parameter := ⟨0, by decide⟩
    let high : Parameter := ⟨32, by decide⟩
    let filters : List Filter := [⟨1, low, [7]⟩, ⟨0xfd, low, []⟩]
    let others : List Filter := [⟨1, high, [7]⟩, ⟨0xfd, low, []⟩]
    let changed : List Filter := [⟨1, low, [8]⟩, ⟨0xfd, low, []⟩]
    let hash := Digest.doubleSha256
    let constant : Bytes → Digest := fun _ => Digest.zero
    filters ≠ others ∧ List.Forall₂ SameContent filters others ∧
      headers Digest.zero filters = headers Digest.zero others ∧
      (List.Forall₂ SameContent filters others ∨
        Collide hash (hashed hash Digest.zero filters) (hashed hash Digest.zero others)) ∧
      ¬List.Forall₂ SameContent filters changed ∧
      lastBy constant Digest.zero filters = lastBy constant Digest.zero changed ∧
      Collide constant (hashed constant Digest.zero filters)
        (hashed constant Digest.zero changed) := by
  intro low high filters others changed hash constant
  have different : filters ≠ others := by decide
  have content : List.Forall₂ SameContent filters others := by
    simp [filters, others, SameContent]
  obtain ⟨headers, last, commits, omits⟩ :=
    headers_commit hash Digest.zero Digest.zero filters others
  have same := omits content
  have final : lastBy hash Digest.zero filters = lastBy hash Digest.zero others := by
    rw [← last, same, getLastD_headersBy]
  -- A digest that is always the same gives chains with other contents the same end.
  have other : ¬List.Forall₂ SameContent filters changed := by
    simp [filters, changed, SameContent]
  obtain ⟨-, -, forged, -⟩ := headers_commit constant Digest.zero Digest.zero filters changed
  refine ⟨different, content, ?_, (commits rfl final).imp_left And.right, other, rfl, ?_⟩
  · rw [headers, same, headers_eq]
  · exact (forged rfl rfl).resolve_left fun both => other both.2

end Filter

end GolombSet
