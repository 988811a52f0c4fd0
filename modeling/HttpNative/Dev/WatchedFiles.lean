import HttpNative.Library.Decimal
import HttpNative.Library.Dictionary
import HttpNative.Library.FnvHash
import HttpNative.Library.Replacements

/-!
# Watched files

The watcher walks its roots and keeps a fingerprint for each file: the time of its last
change, its size and a hash of its bytes. It compares two such snapshots file by file.
-/

namespace HttpNative
namespace DevWatch

/-! ## Fingerprints -/

def hashBytes (bytes : List (BitVec 8)) : BitVec 32 :=
  FnvHash.hashFrom FnvHash.offset (bytes.map (BitVec.setWidth 32))

/-- What is read of a file; the time is written as the template writes it. -/
structure FileReading where
  mtimeMs : Text
  bytes : List (BitVec 8)

/-- `${stat.mtimeMs}:${stat.size}:${hashBytes(fileBytes)}` -/
def FileReading.fingerprint (reading : FileReading) : Text :=
  reading.mtimeMs ++ ':' :: (Decimal.write reading.bytes.length ++
    ':' :: Decimal.write (hashBytes reading.bytes).toNat)

/-- A byte that is replaced changes the hash. -/
theorem hashBytes_replace_ne
    (front back : List (BitVec 8))
    {byte other : BitVec 8}
    (different : byte ≠ other) :
    hashBytes (front ++ byte :: back) ≠ hashBytes (front ++ other :: back) := by
  rw [hashBytes, hashBytes, List.map_append, List.map_append, List.map_cons, List.map_cons]
  apply FnvHash.hashFrom_replace_ne
  intro same
  exact different (FnvHash.setWidth_inj same)

/-- The hash stands behind the last colon. -/
theorem hashBytes_of_fingerprint
    {reading other : FileReading}
    (same : reading.fingerprint = other.fingerprint) :
    hashBytes reading.bytes = hashBytes other.bytes := by
  have last : ∀ (before : Text) (number : Nat),
      ((before ++ ':' :: Decimal.write number).reverse.takeWhile (· ≠ ':')) =
        (Decimal.write number).reverse := by
    intro before number
    have digits : ∀ char ∈ (Decimal.write number).reverse, decide (char ≠ ':') = true := by
      intro char member
      have isDigit := Decimal.isDigit_of_mem_write (List.mem_reverse.mp member)
      rw [decide_eq_true_eq]
      rintro rfl
      exact absurd isDigit (by decide)
    rw [List.reverse_append, List.reverse_cons, List.append_assoc,
      List.takeWhile_append_of_pos digits, List.singleton_append,
      List.takeWhile_cons_of_neg (by simp), List.append_nil]
  have split : ∀ reading : FileReading, reading.fingerprint =
      (reading.mtimeMs ++ ':' :: Decimal.write reading.bytes.length) ++
        ':' :: Decimal.write (hashBytes reading.bytes).toNat := by
    intro reading
    rw [FileReading.fingerprint, List.append_assoc, List.cons_append]
  have ends := congrArg (fun print => print.reverse.takeWhile (· ≠ ':')) same
  simp only [split, last, List.reverse_inj] at ends
  have values := congrArg Decimal.value ends
  rw [Decimal.value_write, Decimal.value_write] at values
  exact BitVec.eq_of_toNat_eq values

theorem fingerprint_replace_ne
    (mtimeMs laterMs : Text)
    (front back : List (BitVec 8))
    {byte other : BitVec 8}
    (different : byte ≠ other) :
    FileReading.fingerprint ⟨mtimeMs, front ++ byte :: back⟩ ≠
      FileReading.fingerprint ⟨laterMs, front ++ other :: back⟩ := fun same =>
  hashBytes_replace_ne front back different (hashBytes_of_fingerprint same)

/-! ## Files -/

/-- What stands at a path: nothing (as behind a dangling link), a file, or a directory with
the names that `readdirSync` lists. -/
inductive FileTree where
  | missing
  | file (reading : FileReading)
  | directory (entries : List Text) (child : Text → FileTree)

/-- What stands at each path that may be a root. -/
abbrev Files := Text → FileTree

/-- The fingerprints by path, in the order of the walk. -/
abbrev Snapshot := Dictionary Text Text

def shouldWatchFile (filePath : Text) : Bool :=
  let normalizedPath := TextPattern.replaceAll (.exactly (text "\\")) (text "/") filePath
  if Text.includesText (text ".github/bench/results") normalizedPath then
    false
  else
    (normalizedPath.splitOn '/').all fun segment =>
      !(segment == text "node_modules" || segment == text ".git" || segment == text "target" ||
        segment == text ".http-native")

/-- `path.join(targetPath, entry)`, for a path that is resolved and the name of an entry. -/
def joinEntry (targetPath entry : Text) : Text :=
  if targetPath.getLast? = some '/' then targetPath ++ entry else targetPath ++ '/' :: entry

def collectWatchedFiles (targetPath : Text) (tree : FileTree) (snapshot : Snapshot) : Snapshot :=
  match tree with
  | .missing => snapshot
  | .directory entries child =>
      entries.foldl
        (fun snapshot entry =>
          collectWatchedFiles (joinEntry targetPath entry) (child entry) snapshot)
        snapshot
  | .file reading =>
      if shouldWatchFile targetPath then
        Dictionary.set targetPath reading.fingerprint snapshot
      else
        snapshot

def snapshotWatchedFiles (roots : List Text) (files : Files) : Snapshot :=
  roots.foldl (fun snapshot root => collectWatchedFiles root (files root) snapshot) []

/-- The first file whose fingerprint is new, or else the first one that is gone. -/
def diffSnapshots (previousSnapshot nextSnapshot : Snapshot) : Option Text :=
  match nextSnapshot.find? fun entry => previousSnapshot.get entry.1 != some entry.2 with
  | some entry => some entry.1
  | none => (previousSnapshot.find? fun entry => (nextSnapshot.get entry.1).isNone).map Prod.fst

/-! ## What a snapshot holds -/

/-- The watched files in the order of the walk. -/
def watchedIn (targetPath : Text) : FileTree → List (Text × FileReading)
  | .missing => []
  | .directory entries child =>
      entries.flatMap fun entry => watchedIn (joinEntry targetPath entry) (child entry)
  | .file reading => if shouldWatchFile targetPath then [(targetPath, reading)] else []

def watched (roots : List Text) (files : Files) : List (Text × FileReading) :=
  roots.flatMap fun root => watchedIn root (files root)

/-- Put a file that is watched into a snapshot. -/
def putReading (snapshot : Snapshot) (entry : Text × FileReading) : Snapshot :=
  snapshot.set entry.1 entry.2.fingerprint

theorem collectWatchedFiles_eq
    (targetPath : Text)
    (tree : FileTree)
    (snapshot : Snapshot) :
    collectWatchedFiles targetPath tree snapshot =
      (watchedIn targetPath tree).foldl putReading snapshot := by
  induction tree generalizing targetPath snapshot with
  | missing => rfl
  | file reading =>
      unfold collectWatchedFiles watchedIn
      split
      · rfl
      · rfl
  | directory entries child hypothesis =>
      unfold collectWatchedFiles watchedIn
      induction entries generalizing snapshot with
      | nil => rfl
      | cons entry entries rest =>
          rw [List.foldl_cons, List.flatMap_cons, List.foldl_append, hypothesis, rest]

theorem snapshotWatchedFiles_eq
    (roots : List Text)
    (files : Files) :
    snapshotWatchedFiles roots files = (watched roots files).foldl putReading [] := by
  suffices general : ∀ snapshot : Snapshot,
      roots.foldl (fun snapshot root => collectWatchedFiles root (files root) snapshot) snapshot =
        (watched roots files).foldl putReading snapshot from general []
  induction roots with
  | nil => exact fun _ => rfl
  | cons root roots hypothesis =>
      intro snapshot
      rw [List.foldl_cons, watched, List.flatMap_cons, List.foldl_append, collectWatchedFiles_eq]
      exact hypothesis _

theorem distinct_snapshotWatchedFiles
    (roots : List Text)
    (files : Files) :
    Dictionary.Distinct (snapshotWatchedFiles roots files) := by
  rw [snapshotWatchedFiles_eq]
  suffices general : ∀ (entries : List (Text × FileReading)) (snapshot : Snapshot),
      Dictionary.Distinct snapshot → Dictionary.Distinct (entries.foldl putReading snapshot) from
    general _ _ Dictionary.distinct_nil
  intro entries
  induction entries with
  | nil => exact fun _ distinct => distinct
  | cons entry entries hypothesis =>
      intro snapshot distinct
      apply hypothesis
      exact distinct.set _ _

theorem joinEntry_ne_nil
    {targetPath : Text}
    (resolved : targetPath ≠ [])
    (entry : Text) :
    joinEntry targetPath entry ≠ [] := by
  unfold joinEntry
  split
  · exact List.append_ne_nil_of_left_ne_nil resolved _
  · exact List.append_ne_nil_of_left_ne_nil resolved _

theorem ne_nil_of_mem_watchedIn
    {targetPath : Text}
    (resolved : targetPath ≠ [])
    {tree : FileTree} {entry : Text × FileReading}
    (member : entry ∈ watchedIn targetPath tree) :
    entry.1 ≠ [] := by
  induction tree generalizing targetPath with
  | missing => cases member
  | file reading =>
      unfold watchedIn at member
      split at member
      · rw [List.mem_singleton.mp member]
        exact resolved
      · cases member
  | directory entries child hypothesis =>
      obtain ⟨name, -, below⟩ := List.mem_flatMap.mp member
      exact hypothesis name (joinEntry_ne_nil resolved name) below

/-- Below roots that are resolved no path is empty. -/
theorem ne_nil_of_mem_snapshot
    {roots : List Text} {files : Files}
    (resolved : ∀ root ∈ roots, root ≠ [])
    {entry : Text × Text}
    (member : entry ∈ snapshotWatchedFiles roots files) :
    entry.1 ≠ [] := by
  have named : ∀ reading ∈ watched roots files, reading.1 ≠ [] := by
    intro reading found
    obtain ⟨root, isRoot, below⟩ := List.mem_flatMap.mp found
    exact ne_nil_of_mem_watchedIn (resolved root isRoot) below
  rw [snapshotWatchedFiles_eq] at member
  suffices general : ∀ (entries : List (Text × FileReading)) (snapshot : Snapshot),
      (∀ reading ∈ entries, reading.1 ≠ []) → (∀ held ∈ snapshot, held.1 ≠ []) →
      ∀ held ∈ entries.foldl putReading snapshot, held.1 ≠ [] from
    general _ _ named (fun _ absent => absurd absent List.not_mem_nil) _ member
  intro entries
  induction entries with
  | nil => exact fun _ _ held => held
  | cons reading entries hypothesis =>
      intro snapshot isNamed held
      rw [List.forall_mem_cons] at isNamed
      apply hypothesis _ isNamed.2
      intro entry found
      rcases Dictionary.eq_or_mem_of_mem_set found with rfl | before
      · exact isNamed.1
      · exact held entry before

/-- Each path stands for one file. -/
def OneFileEach (entries : List (Text × FileReading)) : Prop :=
  ∀ path left right, (path, left) ∈ entries → (path, right) ∈ entries → left = right

/-- A snapshot has the fingerprint of each file that is watched. -/
theorem get_snapshotWatchedFiles
    {roots : List Text} {files : Files}
    (one : OneFileEach (watched roots files))
    {path : Text} {reading : FileReading}
    (member : (path, reading) ∈ watched roots files) :
    (snapshotWatchedFiles roots files).get path = some reading.fingerprint := by
  rw [snapshotWatchedFiles_eq]
  suffices general : ∀ (entries : List (Text × FileReading)) (snapshot : Snapshot),
      (∀ other, (path, other) ∈ entries → other = reading) →
      (path, reading) ∈ entries ∨ snapshot.get path = some reading.fingerprint →
      (entries.foldl putReading snapshot).get path = some reading.fingerprint from
    general _ _ (fun other found => one path other reading found member) (.inl member)
  intro entries
  induction entries with
  | nil =>
      intro snapshot _ held
      exact held.resolve_left List.not_mem_nil
  | cons entry entries hypothesis =>
      intro snapshot only held
      apply hypothesis _ fun other found => only other (List.mem_cons_of_mem _ found)
      obtain ⟨name, other⟩ := entry
      by_cases same : name = path
      · subst same
        obtain rfl := only other List.mem_cons_self
        exact .inr (Dictionary.get_set_self _ _ _)
      · rcases held with found | held
        · refine .inl ((List.mem_cons.mp found).resolve_left ?_)
          intro here
          exact same (congrArg Prod.fst here).symm
        · refine .inr ?_
          rw [putReading, Dictionary.get_set_of_ne _ _ same]
          exact held

/-! ## What a comparison finds -/

/-- Two snapshots have the same fingerprints. -/
def SameFiles (left right : Snapshot) : Prop :=
  ∀ path, left.get path = right.get path

/-- Nothing is found exactly when all fingerprints are the same. -/
theorem diffSnapshots_eq_none_iff
    {previousSnapshot nextSnapshot : Snapshot}
    (distinctPrevious : Dictionary.Distinct previousSnapshot)
    (distinctNext : Dictionary.Distinct nextSnapshot) :
    diffSnapshots previousSnapshot nextSnapshot = none ↔
      SameFiles previousSnapshot nextSnapshot := by
  unfold diffSnapshots
  constructor
  · intro nothing path
    split at nothing
    case h_1 => cases nothing
    case h_2 kept =>
        rw [List.find?_eq_none] at kept
        rw [Option.map_eq_none_iff, List.find?_eq_none] at nothing
        cases next : nextSnapshot.get path with
        | some value =>
            have same := kept (path, value) (Dictionary.mem_of_get next)
            simpa using same
        | none =>
            cases previous : previousSnapshot.get path with
            | none => rfl
            | some value =>
                have gone := nothing (path, value) (Dictionary.mem_of_get previous)
                exact absurd (by rw [next]; rfl) gone
  · intro same
    have kept : nextSnapshot.find?
        (fun entry => previousSnapshot.get entry.1 != some entry.2) = none := by
      rw [List.find?_eq_none]
      intro entry member
      rw [same, distinctNext.get_of_mem member]
      simp
    rw [kept, Option.map_eq_none_iff, List.find?_eq_none]
    intro entry member gone
    rw [← same, distinctPrevious.get_of_mem member] at gone
    cases gone

/-- What is found is in one of the snapshots. -/
theorem mem_of_diffSnapshots
    {previousSnapshot nextSnapshot : Snapshot} {path : Text}
    (found : diffSnapshots previousSnapshot nextSnapshot = some path) :
    ∃ value, (path, value) ∈ previousSnapshot ∨ (path, value) ∈ nextSnapshot := by
  unfold diffSnapshots at found
  split at found
  case h_1 entry first =>
      cases found
      exact ⟨entry.2, .inr (List.mem_of_find?_eq_some first)⟩
  case h_2 =>
      obtain ⟨entry, first, rfl⟩ := Option.map_eq_some_iff.mp found
      exact ⟨entry.2, .inl (List.mem_of_find?_eq_some first)⟩

/-- What is found has changed. -/
theorem ne_of_diffSnapshots
    {previousSnapshot nextSnapshot : Snapshot} {path : Text}
    (distinctPrevious : Dictionary.Distinct previousSnapshot)
    (distinctNext : Dictionary.Distinct nextSnapshot)
    (found : diffSnapshots previousSnapshot nextSnapshot = some path) :
    previousSnapshot.get path ≠ nextSnapshot.get path := by
  unfold diffSnapshots at found
  split at found
  case h_1 entry first =>
      cases found
      rw [distinctNext.get_of_mem (List.mem_of_find?_eq_some first)]
      simpa using List.find?_some first
  case h_2 =>
      obtain ⟨entry, first, rfl⟩ := Option.map_eq_some_iff.mp found
      have gone := List.find?_some first
      rw [Option.isNone_iff_eq_none] at gone
      rw [distinctPrevious.get_of_mem (List.mem_of_find?_eq_some first), gone]
      exact Option.some_ne_none _

end DevWatch
end HttpNative
