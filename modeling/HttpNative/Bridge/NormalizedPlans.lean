import HttpNative.Bridge.AccessAnalysis

/-!
# The header keys of a plan

Header names are compared in lower case. Every header key of a plan that is analyzed or
merged is in lower case already, so that a key and a header of its name meet on both
sides of the bridge.
-/

namespace HttpNative
namespace Bridge

open SyntaxTree (Node Visit)

theorem toLowerCase_toLowerCase (name : Text) :
    toLowerCase (toLowerCase name) = toLowerCase name := by
  have noKelvin : ∀ char : Char,
      (if char = '\u212A' then 'k' else char).toLower ≠ '\u212A' := by
    intro char same
    by_cases kelvin : char = '\u212A'
    · rw [if_pos kelvin] at same
      exact absurd same (by decide)
    · rw [if_neg kelvin] at same
      unfold Char.toLower at same
      split at same
      · rename_i upper
        have code := congrArg Char.toNat same
        have shift : ('a'.val - 'A'.val).toNat = 32 := rfl
        have last : 'Z'.val.toNat = 90 := rfl
        have sign : '\u212A'.toNat = 8490 := rfl
        simp only [ge_iff_le, UInt32.le_iff_toNat_le] at upper
        simp only [Char.toNat, UInt32.toNat_add] at code sign
        omega
      · exact kelvin same
  have kept : (toLowerCase name).map (fun char => if char = '\u212A' then 'k' else char) =
      toLowerCase name := by
    conv_rhs => rw [← List.map_id (toLowerCase name)]
    apply List.map_congr_left
    intro char member
    obtain ⟨folded, inFolded, rfl⟩ := List.mem_map.mp member
    obtain ⟨original, -, rfl⟩ := List.mem_map.mp inFolded
    rw [if_neg (noKelvin original)]
    rfl
  rw [toLowerCase, kept, toLowerCase, Text.asciiLower_asciiLower]

/-- Header keys are in lower case, as `normalizeHeaderLookup` leaves them. -/
def RequestAccessPlan.Normalized (plan : RequestAccessPlan) : Prop :=
  ∀ key ∈ plan.headerKeys, toLowerCase key = key

instance (plan : RequestAccessPlan) : Decidable plan.Normalized :=
  inferInstanceAs (Decidable (∀ key ∈ plan.headerKeys, toLowerCase key = key))

namespace RequestAccessPlan

theorem lower_addMember
    {keys : List Text}
    (normalized : ∀ key ∈ keys, toLowerCase key = key)
    {added : Text}
    (lower : toLowerCase added = added) :
    ∀ key ∈ addMember keys added, toLowerCase key = key := by
  unfold addMember
  split
  · exact normalized
  · intro key member
    rcases List.mem_append.mp member with before | same
    · exact normalized key before
    · rw [List.mem_singleton.mp same]
      exact lower

theorem Normalized.addKey
    {plan : RequestAccessPlan}
    (normalized : plan.Normalized)
    (key : Text)
    (part : KeyedPart) :
    (plan.addKey (part.transform key) part).Normalized := by
  cases part with
  | params => exact normalized
  | query => exact normalized
  | headers => exact lower_addMember normalized (toLowerCase_toLowerCase key)

theorem Normalized.markFull
    {plan : RequestAccessPlan}
    (normalized : plan.Normalized)
    (part : KeyedPart) :
    (plan.markFull part).Normalized := by
  cases part with
  | params => exact normalized
  | query => exact normalized
  | headers => exact normalized

theorem Normalized.ite
    {condition : Prop} [Decidable condition]
    {marked plan : RequestAccessPlan}
    (markedNormalized : marked.Normalized)
    (normalized : plan.Normalized) :
    (if condition then marked else plan).Normalized := by
  split
  · exact markedNormalized
  · exact normalized

theorem normalized_emptyAccessPlan : emptyAccessPlan.Normalized :=
  fun _ member => absurd member List.not_mem_nil

/-- What every mark keeps, marking from left to right keeps. -/
theorem Normalized.foldl
    {Mark : Type}
    {mark : RequestAccessPlan → Mark → RequestAccessPlan}
    (keeps : ∀ plan : RequestAccessPlan, plan.Normalized → ∀ item, (mark plan item).Normalized)
    (marks : List Mark)
    {plan : RequestAccessPlan}
    (normalized : plan.Normalized) :
    (marks.foldl mark plan).Normalized := by
  induction marks generalizing plan with
  | nil => exact normalized
  | cons item rest hypothesis => exact hypothesis (keeps plan normalized item)

end RequestAccessPlan

/-! ## The syntax tree -/

open RequestAccessPlan

@[simp] theorem headerKeys_markDestructured
    (plan : RequestAccessPlan)
    (property : Node) :
    (markDestructured plan property).headerKeys = plan.headerKeys := by
  unfold markDestructured
  dsimp only
  split
  · rfl
  · split_ifs <;> rfl
  · rfl

theorem normalized_markSubAccess
    {plan : RequestAccessPlan}
    (normalized : plan.Normalized)
    (visit : Visit)
    (part : KeyedPart) :
    (markSubAccess plan visit part).Normalized := by
  unfold markSubAccess
  split
  · exact normalized.markFull part
  · split
    · split
      · exact normalized.addKey _ part
      · exact normalized.markFull part
    · exact normalized.markFull part

theorem normalized_markCallArg
    {plan : RequestAccessPlan}
    (normalized : plan.Normalized)
    (visit : Visit) :
    (markCallArg plan visit).Normalized := by
  unfold markCallArg
  split
  · exact normalized.markFull .headers
  · split
    · split
      · exact normalized.addKey _ .headers
      · exact normalized.markFull .headers
    · exact normalized.markFull .headers

theorem normalized_markMember
    {plan : RequestAccessPlan}
    (normalized : plan.Normalized)
    (visit : Visit) :
    (markMember plan visit).Normalized := by
  unfold markMember
  split
  · exact normalized
  · split_ifs
    · exact normalized
    · exact normalized
    · exact normalized
    · exact normalized_markSubAccess normalized visit .params
    · exact normalized_markSubAccess normalized visit .query
    · exact normalized_markSubAccess normalized visit .headers
    · exact normalized_markCallArg normalized visit
    · exact normalized

theorem normalized_markVisit
    (reqNames : List Text)
    (plan : RequestAccessPlan)
    (normalized : plan.Normalized)
    (visit : Visit) :
    (markVisit reqNames plan visit).Normalized := by
  unfold markVisit
  split
  · refine normalized.foldl (fun plan normalized property => ?_) _
    unfold Normalized
    rw [headerKeys_markDestructured]
    exact normalized
  · split
    · exact normalized_markMember normalized visit
    · exact normalized

theorem normalized_analyzeRequestAccessAst
    (ast : Node) :
    (analyzeRequestAccessAst ast).Normalized := by
  unfold analyzeRequestAccessAst
  dsimp only
  split
  · exact normalized_emptyAccessPlan
  · exact normalized_emptyAccessPlan.foldl (normalized_markVisit _) _

/-! ## The patterns -/

theorem normalized_collectMatches
    {plan : RequestAccessPlan}
    (normalized : plan.Normalized)
    (source : Text)
    (find : Text → Option (Text × Nat))
    (part : KeyedPart) :
    (collectMatches source find part plan).Normalized :=
  normalized.foldl (fun _ normalized key => normalized.addKey key part) _

theorem normalized_analyzeRequestAccessRegex
    (source : Text) :
    (analyzeRequestAccessRegex source).Normalized := by
  unfold analyzeRequestAccessRegex
  extract_lets tests start words apart keys calls full bracket
  have ofWords : words.Normalized := normalized_emptyAccessPlan
  have ofApart : apart.Normalized := .ite ofWords ofWords
  have ofKeys : keys.Normalized :=
    ofApart.foldl (fun _ normalized part =>
      normalized_collectMatches (normalized_collectMatches normalized _ _ _) _ _ _) _
  have ofCalls : calls.Normalized := normalized_collectMatches ofKeys _ _ _
  have ofFull : full.Normalized :=
    ofCalls.foldl (fun _ normalized part => .ite (normalized.markFull part) normalized) _
  have ofBracket : bracket.Normalized := .ite ofFull ofFull
  exact .ite (ofBracket.markFull .headers) ofBracket

/-- The plan that a source is analyzed to is normalized. -/
theorem normalized_analyzeRequestAccess
    (acornParse : Text → Option Node)
    (source : Text) :
    (analyzeRequestAccess acornParse source).Normalized := by
  unfold analyzeRequestAccess
  cases acornParse (text "(" ++ source ++ text ")") with
  | none => exact normalized_analyzeRequestAccessRegex source
  | some ast => exact normalized_analyzeRequestAccessAst ast

/-! ## Merging -/

theorem lower_foldl_addMember
    {more : List Text}
    (others : ∀ key ∈ more, toLowerCase key = key)
    {keys : List Text}
    (normalized : ∀ key ∈ keys, toLowerCase key = key) :
    ∀ key ∈ more.foldl addMember keys, toLowerCase key = key := by
  induction more generalizing keys with
  | nil => exact normalized
  | cons added rest hypothesis =>
      exact hypothesis (fun key member => others key (List.mem_cons_of_mem _ member))
        (lower_addMember normalized (others added List.mem_cons_self))

/-- Merging normalized plans gives a normalized plan. -/
theorem normalized_mergeRequestAccessPlans
    {plans : List RequestAccessPlan}
    (normalized : ∀ plan ∈ plans, plan.Normalized) :
    (mergeRequestAccessPlans plans).Normalized := by
  unfold mergeRequestAccessPlans
  have fromMerged : ∀ merged : RequestAccessPlan, merged.Normalized →
      (plans.foldl mergeTwo merged).Normalized := by
    induction plans with
    | nil => exact fun _ own => own
    | cons plan rest hypothesis =>
        intro merged own
        exact hypothesis (fun other member => normalized other (List.mem_cons_of_mem _ member)) _
          (lower_foldl_addMember (normalized plan List.mem_cons_self) own)
  exact fromMerged _ normalized_emptyAccessPlan

end Bridge
end HttpNative
