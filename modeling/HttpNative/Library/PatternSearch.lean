import HttpNative.Library.Dictionary
import HttpNative.Library.PatternTree

/-!
# What a search finds

A tree stores at most one value at the end of each pattern. Of the patterns that
fit a row of labels a search takes the one that keeps a fixed label where the
others first capture, and it returns the labels at its captures. It runs out of
room exactly where more captures lie on one way down than there is room for.
-/

namespace HttpNative

variable {Label Value : Type}

/-! ## Patterns -/

/-- The captures of a pattern. -/
def captureCount [DecidableEq Label] (pattern : List (PatternSegment Label)) : Nat :=
  pattern.count .capture

/-- The labels at the captures of a pattern. -/
def capturesOf : List (PatternSegment Label) → List Label → List Label
  | .fixed _ :: pattern, _ :: labels => capturesOf pattern labels
  | .capture :: pattern, label :: labels => label :: capturesOf pattern labels
  | _, _ => []

/-- Where the two patterns first differ, the first has the fixed label. -/
inductive Prefers : List (PatternSegment Label) → List (PatternSegment Label) → Prop
  | fixed {label : Label} {pattern other : List (PatternSegment Label)} :
      Prefers (.fixed label :: pattern) (.capture :: other)
  | later {segment : PatternSegment Label} {pattern other : List (PatternSegment Label)} :
      Prefers pattern other → Prefers (segment :: pattern) (segment :: other)

/-- The labels of a pattern with one label at all its captures. -/
def fillCaptures (fresh : Label) (pattern : List (PatternSegment Label)) : List Label :=
  pattern.map fun segment =>
    match segment with
    | .fixed label => label
    | .capture => fresh

theorem Prefers.asymm
    {pattern other : List (PatternSegment Label)}
    (prefers : Prefers pattern other) :
    ¬ Prefers other pattern := by
  induction prefers with
  | fixed => intro reverse; cases reverse
  | later _ hypothesis =>
      intro reverse
      cases reverse with
      | later inside => exact hypothesis inside

theorem Fits.length_capturesOf
    [DecidableEq Label]
    {pattern : List (PatternSegment Label)} {labels : List Label}
    (fits : Fits pattern labels) :
    (capturesOf pattern labels).length = captureCount pattern := by
  induction fits with
  | nil => rfl
  | fixed _ hypothesis =>
      rw [capturesOf, hypothesis]
      simp [captureCount]
  | capture _ hypothesis =>
      rw [capturesOf, List.length_cons, hypothesis]
      simp [captureCount]

instance Fits.decidable
    [DecidableEq Label] :
    (pattern : List (PatternSegment Label)) → (labels : List Label) →
      Decidable (Fits pattern labels)
  | [], [] => .isTrue .nil
  | [], _ :: _ => .isFalse fun fits => by cases fits
  | _ :: _, [] => .isFalse fun fits => by cases fits
  | .capture :: pattern, _ :: labels =>
      match decidable pattern labels with
      | .isTrue fits => .isTrue (.capture fits)
      | .isFalse unfit => .isFalse fun fits => by
          cases fits with
          | capture inside => exact unfit inside
  | .fixed label :: pattern, other :: labels =>
      if same : label = other then
        match decidable pattern labels with
        | .isTrue fits => .isTrue (same ▸ .fixed fits)
        | .isFalse unfit => .isFalse fun fits => by
            cases fits with
            | fixed inside => exact unfit inside
      else
        .isFalse fun fits => by
          cases fits with
          | fixed => exact same rfl

instance Prefers.decidable
    [DecidableEq Label] :
    (pattern other : List (PatternSegment Label)) → Decidable (Prefers pattern other)
  | [], _ => .isFalse fun prefers => by cases prefers
  | _ :: _, [] => .isFalse fun prefers => by cases prefers
  | first :: pattern, second :: other =>
      if same : first = second then
        match decidable pattern other with
        | .isTrue prefers => .isTrue (same ▸ .later prefers)
        | .isFalse not => .isFalse fun prefers => by
            cases prefers with
            | fixed => cases same
            | later inside => exact not inside
      else
        match first, second with
        | .fixed _, .capture => .isTrue .fixed
        | .fixed _, .fixed _ => .isFalse fun prefers => by
            cases prefers with
            | later => exact same rfl
        | .capture, _ => .isFalse fun prefers => by
            cases prefers with
            | later => exact same rfl

namespace PatternTree

variable [DecidableEq Label]

/-! ## One value for each pattern -/

/-- The value at the end of a pattern, under the first child of each label. -/
def lookup : List (PatternSegment Label) → PatternTree Label Value → Option Value
  | [], .node _ value _ => value
  | .fixed label :: pattern, .node children _ _ =>
      match Dictionary.get label children with
      | none => none
      | some child => lookup pattern child
  | .capture :: pattern, .node _ _ captureChild =>
      match captureChild with
      | none => none
      | some child => lookup pattern child

theorem lookup_capture
    (pattern : List (PatternSegment Label))
    (children : List (Label × PatternTree Label Value))
    (value : Option Value)
    (captureChild : Option (PatternTree Label Value)) :
    lookup (.capture :: pattern) (.node children value captureChild) =
      match captureChild with
      | none => none
      | some child => lookup pattern child := by
  cases captureChild <;> rfl

theorem lookup_empty
    (pattern : List (PatternSegment Label)) :
    lookup pattern (empty : PatternTree Label Value) = none := by
  cases pattern with
  | nil => rfl
  | cons segment pattern => cases segment <;> rfl

theorem get_updateChild
    (label other : Label)
    (update : PatternTree Label Value → PatternTree Label Value)
    (children : List (Label × PatternTree Label Value)) :
    Dictionary.get other (updateChild label update children) =
      if label = other then some (update ((Dictionary.get label children).getD empty))
      else Dictionary.get other children := by
  induction children with
  | nil => simp [updateChild, Dictionary.get]
  | cons first rest hypothesis =>
      obtain ⟨stored, child⟩ := first
      rw [updateChild]
      by_cases here : stored = label
      · subst here
        by_cases same : stored = other
        · simp [Dictionary.get, same]
        · simp [Dictionary.get, same]
      · rw [if_neg here, Dictionary.get, hypothesis]
        by_cases same : label = other
        · subst same
          simp [Dictionary.get, here]
        · simp [Dictionary.get, same]

/-- An insertion changes the value of its own pattern only. -/
theorem lookup_insert
    (value : Value)
    (inserted pattern : List (PatternSegment Label))
    (tree : PatternTree Label Value) :
    lookup pattern (tree.insert value inserted) =
      if inserted = pattern then some value else lookup pattern tree := by
  induction inserted generalizing pattern tree with
  | nil =>
      obtain ⟨children, stored, captureChild⟩ := tree
      cases pattern with
      | nil => rfl
      | cons segment pattern => cases segment <;> rfl
  | cons segment inserted hypothesis =>
      obtain ⟨children, stored, captureChild⟩ := tree
      cases segment with
      | fixed label =>
          cases pattern with
          | nil => rfl
          | cons other pattern =>
              cases other with
              | capture => rfl
              | fixed other =>
                  rw [insert, lookup, get_updateChild, lookup]
                  by_cases same : label = other
                  · subst same
                    rw [if_pos rfl]
                    simp only [hypothesis, List.cons.injEq, true_and]
                    cases Dictionary.get label children with
                    | none => rw [Option.getD_none, lookup_empty]
                    | some child => rfl
                  · simp [same]
      | capture =>
          cases pattern with
          | nil => rfl
          | cons other pattern =>
              cases other with
              | fixed other => rfl
              | capture =>
                  rw [insert, lookup_capture, lookup_capture]
                  simp only [hypothesis, List.cons.injEq, true_and]
                  cases captureChild with
                  | none => rw [Option.getD_none, lookup_empty]
                  | some child => rfl

/-! ## Conditions on every node -/

/-- The labels of the children of every node meet a condition. -/
inductive EveryNode (holds : List Label → Prop) : PatternTree Label Value → Prop
  | node
      {children : List (Label × PatternTree Label Value)} {value : Option Value}
      {captureChild : Option (PatternTree Label Value)} :
      holds (children.map Prod.fst) →
      (∀ entry ∈ children, EveryNode holds entry.2) →
      (∀ child, captureChild = some child → EveryNode holds child) →
      EveryNode holds (.node children value captureChild)

/-- No way down passes more captures than the bound. -/
inductive CapturesLE : Nat → PatternTree Label Value → Prop
  | node
      {bound : Nat} {children : List (Label × PatternTree Label Value)} {value : Option Value}
      {captureChild : Option (PatternTree Label Value)} :
      (∀ entry ∈ children, CapturesLE bound entry.2) →
      (∀ child, captureChild = some child → 0 < bound) →
      (∀ child, captureChild = some child → CapturesLE (bound - 1) child) →
      CapturesLE bound (.node children value captureChild)

theorem map_fst_updateChild
    (label : Label)
    (update : PatternTree Label Value → PatternTree Label Value)
    (children : List (Label × PatternTree Label Value)) :
    (updateChild label update children).map Prod.fst =
      if label ∈ children.map Prod.fst then children.map Prod.fst
      else children.map Prod.fst ++ [label] := by
  induction children with
  | nil => simp [updateChild]
  | cons first rest hypothesis =>
      obtain ⟨stored, child⟩ := first
      rw [updateChild]
      by_cases same : stored = label
      · simp [same]
      · rw [if_neg same, List.map_cons, hypothesis]
        by_cases inRest : label ∈ rest.map Prod.fst
        · simp [inRest]
        · rw [if_neg inRest, if_neg]
          · rfl
          · simpa [Ne.symm same] using inRest

omit [DecidableEq Label] in
theorem EveryNode.empty
    {holds : List Label → Prop}
    (initial : holds []) :
    EveryNode holds (PatternTree.empty : PatternTree Label Value) :=
  .node initial (by simp) (by simp)

theorem EveryNode.insert
    {holds : List Label → Prop} {value : Value} {pattern : List (PatternSegment Label)}
    {tree : PatternTree Label Value}
    (initial : holds [])
    (grows : ∀ labels label, .fixed label ∈ pattern → label ∉ labels → holds labels →
      holds (labels ++ [label]))
    (every : EveryNode holds tree) :
    EveryNode holds (tree.insert value pattern) := by
  induction pattern generalizing tree with
  | nil =>
      cases every with
      | node here inChildren inCapture => exact .node here inChildren inCapture
  | cons segment pattern hypothesis =>
      have below {tree : PatternTree Label Value} (every : EveryNode holds tree) :
          EveryNode holds (tree.insert value pattern) :=
        hypothesis (fun labels label member =>
          grows labels label (List.mem_cons_of_mem _ member)) every
      cases every with
      | @node children stored captureChild here inChildren inCapture =>
          cases segment with
          | fixed label =>
              refine .node ?_ ?_ inCapture
              · rw [map_fst_updateChild]
                by_cases known : label ∈ children.map Prod.fst
                · rw [if_pos known]
                  exact here
                · rw [if_neg known]
                  exact grows _ label (by simp) known here
              · rintro ⟨other, child⟩ member
                rcases mem_updateChild member with old | ⟨rfl, before, rfl, origin⟩
                · exact inChildren _ old
                · rcases origin with rfl | inside
                  · exact below (.empty initial)
                  · exact below (inChildren _ inside)
          | capture =>
              refine .node here inChildren ?_
              rintro child same
              cases same
              cases captureChild with
              | none => exact below (.empty initial)
              | some before => exact below (inCapture before rfl)

omit [DecidableEq Label] in
theorem CapturesLE.empty
    (bound : Nat) :
    CapturesLE bound (PatternTree.empty : PatternTree Label Value) :=
  .node (by simp) (by simp) (by simp)

theorem CapturesLE.insert
    {bound : Nat} {value : Value} {pattern : List (PatternSegment Label)}
    {tree : PatternTree Label Value}
    (few : captureCount pattern ≤ bound)
    (bounded : CapturesLE bound tree) :
    CapturesLE bound (tree.insert value pattern) := by
  induction pattern generalizing tree bound with
  | nil =>
      cases bounded with
      | node inChildren positive inCapture => exact .node inChildren positive inCapture
  | cons segment pattern hypothesis =>
      cases bounded with
      | @node _ children stored captureChild inChildren positive inCapture =>
          cases segment with
          | fixed label =>
              have few : captureCount pattern ≤ bound := by simpa [captureCount] using few
              refine .node ?_ positive inCapture
              rintro ⟨other, child⟩ member
              rcases mem_updateChild member with old | ⟨rfl, before, rfl, origin⟩
              · exact inChildren _ old
              · rcases origin with rfl | inside
                · exact hypothesis few (.empty bound)
                · exact hypothesis few (inChildren _ inside)
          | capture =>
              have few : captureCount pattern + 1 ≤ bound := by simpa [captureCount] using few
              refine .node inChildren (fun _ _ => by omega) ?_
              rintro child same
              cases same
              cases captureChild with
              | none => exact hypothesis (by omega) (.empty _)
              | some before => exact hypothesis (by omega) (inCapture before rfl)

/-! ## The outcome of a search -/

/-- No pattern with a value fits the labels. -/
def NoneFits (tree : PatternTree Label Value) (labels : List Label) : Prop :=
  ∀ pattern, Fits pattern labels → lookup pattern tree = none

/-- The value of the pattern preferred among those that fit the labels. -/
structure Leads
    (tree : PatternTree Label Value)
    (labels : List Label)
    (pattern : List (PatternSegment Label))
    (value : Value) : Prop where
  fits : Fits pattern labels
  stored : lookup pattern tree = some value
  preferred : ∀ other, Fits other labels → lookup other tree ≠ none →
    other = pattern ∨ Prefers pattern other

/-- The tree has a node at the end of the way. -/
def HasWay : List (PatternSegment Label) → PatternTree Label Value → Prop
  | [], _ => True
  | .fixed label :: way, .node children _ _ =>
      ∃ child, Dictionary.get label children = some child ∧ HasWay way child
  | .capture :: way, .node _ _ captureChild =>
      ∃ child, captureChild = some child ∧ HasWay way child

/-- A way along the beginning of the labels has more captures than there is room for,
and no pattern that fits is preferred to it. -/
structure RunsOut
    (tree : PatternTree Label Value)
    (labels : List Label)
    (room : Nat)
    (way : List (PatternSegment Label)) : Prop where
  stands : HasWay way tree
  fits : ∃ beginning, beginning <+: labels ∧ Fits way beginning
  deep : room < captureCount way
  first : ∀ other, Fits other labels → lookup other tree ≠ none → ¬ Prefers other way

section Outcome

variable {children : List (Label × PatternTree Label Value)} {stored : Option Value}
  {captureChild : Option (PatternTree Label Value)} {label : Label} {labels : List Label}

theorem Leads.fixed
    {child : PatternTree Label Value} {pattern : List (PatternSegment Label)} {value : Value}
    (here : Dictionary.get label children = some child)
    (leads : Leads child labels pattern value) :
    Leads (.node children stored captureChild) (label :: labels) (.fixed label :: pattern)
      value where
  fits := .fixed leads.fits
  stored := by simpa only [lookup, here] using leads.stored
  preferred := by
    intro other fits found
    cases fits with
    | capture inside => exact .inr .fixed
    | fixed inside =>
        rcases leads.preferred _ inside (by simpa only [lookup, here] using found) with
          rfl | prefers
        · exact .inl rfl
        · exact .inr (.later prefers)

theorem lookup_fixed_of_noneFits
    {pattern : List (PatternSegment Label)}
    (noChild : ∀ child, Dictionary.get label children = some child → NoneFits child labels)
    (fits : Fits pattern labels) :
    lookup (.fixed label :: pattern) (.node children stored captureChild) = none := by
  rw [lookup]
  cases get : Dictionary.get label children with
  | none => rfl
  | some child => exact noChild child get _ fits

theorem Leads.capture
    {child : PatternTree Label Value} {pattern : List (PatternSegment Label)} {value : Value}
    (noChild : ∀ child, Dictionary.get label children = some child → NoneFits child labels)
    (leads : Leads child labels pattern value) :
    Leads (.node children stored (some child)) (label :: labels) (.capture :: pattern)
      value where
  fits := .capture leads.fits
  stored := leads.stored
  preferred := by
    intro other fits found
    cases fits with
    | fixed inside => exact absurd (lookup_fixed_of_noneFits noChild inside) found
    | capture inside =>
        rcases leads.preferred _ inside found with rfl | prefers
        · exact .inl rfl
        · exact .inr (.later prefers)

theorem RunsOut.fixed
    {child : PatternTree Label Value} {room : Nat} {way : List (PatternSegment Label)}
    (here : Dictionary.get label children = some child)
    (runsOut : RunsOut child labels room way) :
    RunsOut (.node children stored captureChild) (label :: labels) room
      (.fixed label :: way) where
  stands := ⟨child, here, runsOut.stands⟩
  fits := by
    obtain ⟨beginning, isPrefix, fits⟩ := runsOut.fits
    exact ⟨label :: beginning, List.cons_prefix_cons.mpr ⟨rfl, isPrefix⟩, .fixed fits⟩
  deep := by simpa [captureCount] using runsOut.deep
  first := by
    intro other fits found prefers
    cases prefers with
    | later inside =>
        cases fits with
        | fixed fitsInside =>
            exact runsOut.first _ fitsInside (by simpa only [lookup, here] using found) inside

theorem RunsOut.capture
    {child : PatternTree Label Value} {room : Nat} {way : List (PatternSegment Label)}
    (noChild : ∀ child, Dictionary.get label children = some child → NoneFits child labels)
    (runsOut : RunsOut child labels room way) :
    RunsOut (.node children stored (some child)) (label :: labels) (room + 1)
      (.capture :: way) where
  stands := ⟨child, rfl, runsOut.stands⟩
  fits := by
    obtain ⟨beginning, isPrefix, fits⟩ := runsOut.fits
    exact ⟨label :: beginning, List.cons_prefix_cons.mpr ⟨rfl, isPrefix⟩, .capture fits⟩
  deep := by simpa [captureCount] using runsOut.deep
  first := by
    intro other fits found prefers
    cases fits with
    | fixed fitsInside => exact found (lookup_fixed_of_noneFits noChild fitsInside)
    | capture fitsInside =>
        cases prefers with
        | later inside => exact runsOut.first _ fitsInside found inside

theorem runsOut_capture
    {child : PatternTree Label Value}
    (noChild : ∀ child, Dictionary.get label children = some child → NoneFits child labels) :
    RunsOut (.node children stored (some child)) (label :: labels) 0 [.capture] where
  stands := ⟨child, rfl, trivial⟩
  fits := ⟨[label], List.cons_prefix_cons.mpr ⟨rfl, List.nil_prefix⟩, .capture .nil⟩
  deep := Nat.one_pos
  first := by
    intro other fits found prefers
    cases fits with
    | fixed fitsInside => exact found (lookup_fixed_of_noneFits noChild fitsInside)
    | capture fitsInside =>
        cases prefers with
        | later inside => cases inside

theorem noneFits_node
    (noChild : ∀ child, Dictionary.get label children = some child → NoneFits child labels)
    (noCapture : ∀ child, captureChild = some child → NoneFits child labels) :
    NoneFits (.node children stored captureChild) (label :: labels) := by
  intro pattern fits
  cases fits with
  | fixed inside => exact lookup_fixed_of_noneFits noChild inside
  | capture inside =>
      rw [lookup_capture]
      cases captureChild with
      | none => rfl
      | some child => exact noCapture child rfl _ inside

theorem searchChildren_of_notMem
    (search : PatternTree Label Value → Search Label Value)
    (absent : label ∉ children.map Prod.fst) :
    searchChildren label search children = .missed := by
  induction children with
  | nil => rfl
  | cons first rest hypothesis =>
      obtain ⟨other, child⟩ := first
      rw [List.map_cons, List.mem_cons, not_or] at absent
      rw [searchChildren, if_neg (Ne.symm absent.1)]
      exact hypothesis absent.2

/-- A search that does not miss under the first child ends there. -/
theorem searchChildren_of_get
    {search : PatternTree Label Value → Search Label Value} {child : PatternTree Label Value}
    (here : Dictionary.get label children = some child)
    (ends : search child ≠ .missed) :
    searchChildren label search children = search child := by
  induction children with
  | nil => cases here
  | cons first rest hypothesis =>
      obtain ⟨other, firstChild⟩ := first
      rw [Dictionary.get] at here
      rw [searchChildren]
      by_cases same : other = label
      · rw [if_pos same] at here ⊢
        cases here
        cases outcome : search child with
        | missed => exact absurd outcome ends
        | found value captured => rfl
        | overflow => rfl
      · rw [if_neg same] at here ⊢
        exact hypothesis here

/-- With distinct labels, only the child under the label is searched. -/
theorem searchChildren_of_nodup
    (search : PatternTree Label Value → Search Label Value)
    (distinct : (children.map Prod.fst).Nodup) :
    searchChildren label search children =
      match Dictionary.get label children with
      | none => .missed
      | some child => search child := by
  induction children with
  | nil => rfl
  | cons first rest hypothesis =>
      obtain ⟨other, child⟩ := first
      rw [List.map_cons, List.nodup_cons] at distinct
      rw [searchChildren, Dictionary.get]
      by_cases same : other = label
      · rw [if_pos same, if_pos same, searchChildren_of_notMem search (same ▸ distinct.1)]
        cases outcome : search child <;> simp only [outcome]
      · rw [if_neg same, if_neg same]
        exact hypothesis distinct.2

theorem search_of_child
    {capacity : Nat} {captured : List Label} {outcome : Search Label Value}
    (searched : searchChildren label (search capacity labels captured) children = outcome)
    (ends : outcome ≠ .missed) :
    search capacity (label :: labels) captured (.node children stored captureChild) =
      outcome := by
  unfold search
  rw [searched]
  cases outcome with
  | missed => exact absurd rfl ends
  | found value captured => rfl
  | overflow => rfl

theorem search_of_noChild
    {capacity : Nat} {captured : List Label}
    (missed : searchChildren label (search capacity labels captured) children = .missed) :
    search capacity (label :: labels) captured (.node children stored captureChild) =
      match captureChild with
      | none => .missed
      | some child =>
          if captured.length < capacity then
            search capacity labels (captured ++ [label]) child
          else
            .overflow := by
  cases captureChild <;> rw [search.eq_def] <;> simp only [missed]

end Outcome

/-- A search finds the preferred pattern that fits, misses where none fits, or runs out
of room on its way. -/
theorem search_cases
    {capacity : Nat}
    (labels : List Label)
    {captured : List Label} {tree : PatternTree Label Value}
    (distinct : EveryNode List.Nodup tree)
    (room : captured.length ≤ capacity) :
    (∃ pattern value, Leads tree labels pattern value ∧
      search capacity labels captured tree =
        .found value (captured ++ capturesOf pattern labels)) ∨
    NoneFits tree labels ∧ search capacity labels captured tree = .missed ∨
    (∃ way, RunsOut tree labels (capacity - captured.length) way) ∧
      search capacity labels captured tree = .overflow := by
  induction labels generalizing captured tree with
  | nil =>
      obtain ⟨children, stored, captureChild⟩ := tree
      cases stored with
      | none =>
          refine .inr (.inl ⟨?_, rfl⟩)
          intro pattern fits
          cases fits
          rfl
      | some value =>
          refine .inl ⟨[], value, ⟨.nil, rfl, ?_⟩, by simp [search, capturesOf]⟩
          intro other fits _
          cases fits
          exact .inl rfl
  | cons label labels hypothesis =>
      cases distinct with
      | @node children stored captureChild here inChildren inCapture =>
      -- the child under the label comes first, as its pattern is preferred
      have fixedPart :
          (∃ pattern value, Leads (.node children stored captureChild) (label :: labels)
            (.fixed label :: pattern) value ∧
            searchChildren label (search capacity labels captured) children =
              .found value (captured ++ capturesOf pattern labels)) ∨
          (∀ child, Dictionary.get label children = some child → NoneFits child labels) ∧
            searchChildren label (search capacity labels captured) children = .missed ∨
          (∃ way, RunsOut (.node children stored captureChild) (label :: labels)
            (capacity - captured.length) way) ∧
            searchChildren label (search capacity labels captured) children = .overflow := by
        rw [searchChildren_of_nodup _ here]
        cases get : Dictionary.get label children with
        | none => exact .inr (.inl ⟨by simp, rfl⟩)
        | some child =>
            rcases hypothesis (inChildren _ (Dictionary.mem_of_get get)) room with
              ⟨pattern, value, leads, found⟩ | ⟨none, missed⟩ | ⟨⟨way, runsOut⟩, overflow⟩
            · exact .inl ⟨pattern, value, leads.fixed get, found⟩
            · refine .inr (.inl ⟨?_, missed⟩)
              rintro _ same
              cases same
              exact none
            · exact .inr (.inr ⟨⟨_, runsOut.fixed get⟩, overflow⟩)
      rcases fixedPart with ⟨pattern, value, leads, found⟩ | ⟨noChild, missed⟩ | ⟨runsOut, overflow⟩
      · refine .inl ⟨_, value, leads, ?_⟩
        rw [search_of_child found (by simp), capturesOf]
      · cases captureChild with
        | none =>
            exact .inr (.inl ⟨noneFits_node noChild (by simp), search_of_noChild missed⟩)
        | some child =>
            rw [search_of_noChild missed]
            dsimp only
            by_cases free : captured.length < capacity
            · rw [if_pos free]
              have enough : (captured ++ [label]).length ≤ capacity := by
                rw [List.length_append]
                exact free
              rcases hypothesis (inCapture child rfl) enough with
                ⟨pattern, value, leads, found⟩ | ⟨none, missed⟩ | ⟨⟨way, runsOut⟩, overflow⟩
              · refine .inl ⟨_, value, leads.capture noChild, ?_⟩
                rw [found, capturesOf, List.append_assoc, List.singleton_append]
              · refine .inr (.inl ⟨noneFits_node noChild ?_, missed⟩)
                rintro _ same
                cases same
                exact none
              · refine .inr (.inr ⟨⟨.capture :: way, ?_⟩, overflow⟩)
                have left : capacity - captured.length =
                    capacity - (captured ++ [label]).length + 1 := by
                  rw [List.length_append, List.length_singleton]
                  omega
                rw [left]
                exact runsOut.capture noChild
            · rw [if_neg free, Nat.sub_eq_zero_of_le (Nat.le_of_not_lt free)]
              exact .inr (.inr ⟨⟨_, runsOut_capture noChild⟩, rfl⟩)
      · exact .inr (.inr ⟨runsOut, search_of_child overflow (by simp)⟩)

/-- A search runs out of room exactly when a way does. -/
theorem search_eq_overflow_iff
    {capacity : Nat} {labels captured : List Label} {tree : PatternTree Label Value}
    (distinct : EveryNode List.Nodup tree)
    (room : captured.length ≤ capacity) :
    search capacity labels captured tree = .overflow ↔
      ∃ way, RunsOut tree labels (capacity - captured.length) way := by
  constructor
  · intro overflow
    rcases search_cases labels distinct room with
      ⟨_, _, _, found⟩ | ⟨_, missed⟩ | ⟨runsOut, _⟩
    · rw [found] at overflow
      cases overflow
    · rw [missed] at overflow
      cases overflow
    · exact runsOut
  · rintro ⟨way, stands, ⟨beginning, ⟨rest, rfl⟩, fits⟩, deep, first⟩
    induction fits generalizing captured tree with
    | nil => exact absurd deep (Nat.not_lt_zero _)
    | @fixed label way beginning _ hypothesis =>
        cases distinct with
        | @node children stored captureChild here inChildren inCapture =>
        obtain ⟨child, get, stands⟩ := stands
        have inside := hypothesis (inChildren _ (Dictionary.mem_of_get get)) room
          stands (by simpa [captureCount] using deep)
          fun other fits found prefers => first (.fixed label :: other) (.fixed fits)
            (by simpa only [lookup, get] using found) (.later prefers)
        rw [List.cons_append]
        refine search_of_child ?_ (by simp)
        rw [searchChildren_of_get get (by rw [inside]; simp), inside]
    | @capture label way beginning _ hypothesis =>
        cases distinct with
        | @node children stored captureChild here inChildren inCapture =>
        obtain ⟨child, rfl, stands⟩ := stands
        rw [List.cons_append] at first ⊢
        -- a child under the label has no pattern that fits, for it would be preferred
        have noChild : ∀ child, Dictionary.get label children = some child →
            NoneFits child (beginning ++ rest) := by
          intro other get pattern fits
          by_contra found
          exact first (.fixed label :: pattern) (.fixed fits)
            (by simpa only [lookup, get] using found) .fixed
        have fixedPart :
            searchChildren label (search capacity (beginning ++ rest) captured) children = .missed ∨
            searchChildren label (search capacity (beginning ++ rest) captured) children =
              .overflow := by
          rw [searchChildren_of_nodup _ here]
          cases get : Dictionary.get label children with
          | none => exact .inl rfl
          | some other =>
              rcases search_cases (beginning ++ rest)
                  (inChildren _ (Dictionary.mem_of_get get)) room with
                ⟨pattern, value, leads, _⟩ | ⟨_, missed⟩ | ⟨_, overflow⟩
              · have stored := leads.stored
                rw [noChild other get pattern leads.fits] at stored
                cases stored
              · exact .inl missed
              · exact .inr overflow
        rcases fixedPart with missed | overflow
        · rw [search_of_noChild missed]
          dsimp only
          by_cases free : captured.length < capacity
          · rw [if_pos free]
            refine hypothesis (inCapture child rfl) ?_ stands ?_
              fun other fits found prefers => first (.capture :: other) (.capture fits) found
                (.later prefers)
            · rw [List.length_append]
              exact free
            · rw [List.length_append, List.length_singleton]
              simp only [captureCount, List.count_cons_self] at deep ⊢
              omega
          · rw [if_neg free]
        · exact search_of_child overflow (by simp)

theorem CapturesLE.captureCount_le
    {bound : Nat} {tree : PatternTree Label Value} {way : List (PatternSegment Label)}
    (bounded : CapturesLE bound tree)
    (stands : HasWay way tree) :
    captureCount way ≤ bound := by
  induction way generalizing bound tree with
  | nil => exact Nat.zero_le _
  | cons segment way hypothesis =>
      cases bounded with
      | node inChildren positive inCapture =>
      cases segment with
      | fixed label =>
          obtain ⟨child, get, stands⟩ := stands
          simpa [captureCount] using hypothesis (inChildren _ (Dictionary.mem_of_get get)) stands
      | capture =>
          obtain ⟨child, rfl, stands⟩ := stands
          have inside := hypothesis (inCapture child rfl) stands
          have nonzero := positive child rfl
          simp only [captureCount, List.count_cons_self] at inside ⊢
          omega

/-- A search with room on every way down finds the preferred pattern that fits,
and misses where none fits. -/
theorem search_spec
    {capacity : Nat} {labels captured : List Label} {tree : PatternTree Label Value}
    (distinct : EveryNode List.Nodup tree)
    (room : ∃ bound, captured.length + bound ≤ capacity ∧ CapturesLE bound tree) :
    (∃ pattern value, Leads tree labels pattern value ∧
      search capacity labels captured tree =
        .found value (captured ++ capturesOf pattern labels)) ∨
    NoneFits tree labels ∧ search capacity labels captured tree = .missed := by
  obtain ⟨bound, enough, bounded⟩ := room
  rcases search_cases labels distinct (Nat.le_of_add_right_le enough) with
    found | missed | ⟨⟨way, runsOut⟩, _⟩
  · exact .inl found
  · exact .inr missed
  · have few := bounded.captureCount_le runsOut.stands
    have deep := runsOut.deep
    omega

/-- A search along a pattern with more captures than there is room for runs out
of room when no label of the tree stands at the captures. -/
theorem search_overflow
    {capacity : Nat} {captured : List Label} {tree : PatternTree Label Value} {fresh : Label}
    {pattern : List (PatternSegment Label)}
    (avoids : EveryNode (fresh ∉ ·) tree)
    (stored : lookup pattern tree ≠ none)
    (room : captured.length ≤ capacity)
    (deep : capacity < captured.length + captureCount pattern) :
    search capacity (fillCaptures fresh pattern) captured tree = .overflow := by
  induction pattern generalizing captured tree with
  | nil =>
      simp only [captureCount, List.count_nil] at deep
      omega
  | cons segment pattern hypothesis =>
      cases avoids with
      | @node children value captureChild here inChildren inCapture =>
      cases segment with
      | fixed label =>
          cases get : Dictionary.get label children with
          | none => simp [lookup, get] at stored
          | some child =>
              have inside :
                  search capacity (fillCaptures fresh pattern) captured child = .overflow :=
                hypothesis (inChildren _ (Dictionary.mem_of_get get))
                  (by simpa only [lookup, get] using stored) room
                  (by simpa [captureCount] using deep)
              change search capacity (label :: fillCaptures fresh pattern) captured _ = _
              refine search_of_child ?_ (by simp)
              rw [searchChildren_of_get get (by rw [inside]; simp), inside]
      | capture =>
          cases captureChild with
          | none => simp [lookup] at stored
          | some child =>
              change search capacity (fresh :: fillCaptures fresh pattern) captured _ = _
              rw [search_of_noChild (searchChildren_of_notMem _ here)]
              simp only
              by_cases free : captured.length < capacity
              · rw [if_pos free]
                refine hypothesis (inCapture child rfl) stored
                  (by rw [List.length_append]; exact free) ?_
                simp only [captureCount, List.count_cons_self] at deep
                simp only [List.length_append, List.length_singleton, captureCount]
                omega
              · rw [if_neg free]

end PatternTree
end HttpNative
