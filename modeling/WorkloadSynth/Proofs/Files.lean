import Mathlib
import WorkloadSynth.FileSystem.Action

/-!
# What file operations leave alone

A path is followed through directories only, so it leads to the same location as long as the
directories on its way are there (`resolve_of_directoriesIn`).  Making directories and writing files
never takes a directory away, and once a directory has been made, making it again changes nothing
(`makeDirectories_of_made`).
-/

namespace WorkloadSynth

namespace FileSystem

/-! ## §1 — entries -/

theorem lookup_filter_ne {entries : List (Location × Entry)} {location other : Location}
    (h : other ≠ location) :
    (entries.filter fun e => e.1 ≠ location).lookup other = entries.lookup other := by
  induction entries with
  | nil => rfl
  | cons e entries ih =>
    obtain ⟨place, entry⟩ := e
    by_cases hplace : place = location
    · have hne : (other == place) = false := by
        rw [hplace]
        exact beq_false_of_ne h
      rw [List.filter_cons_of_neg (by simp [hplace]), ih, List.lookup_cons, hne]
    · rw [List.filter_cons_of_pos (by simp [hplace]), List.lookup_cons, List.lookup_cons, ih]

theorem entry?_root (fs : FileSystem) : fs.entry? [] = some .directory := rfl

/-- An entry that does not replace a directory is put in its place, and nowhere else. -/
theorem entry?_insert {fs : FileSystem} {location : Location} {entry : Entry}
    (h : fs.entry? location ≠ some .directory) (other : Location) :
    entry? (fs.insert location entry) other =
      if other = location then some entry else fs.entry? other := by
  have hroot : location ≠ [] := by
    rintro rfl
    exact h fs.entry?_root
  by_cases hother : other = location
  · subst hother
    rw [if_pos rfl, entry?, if_neg (by simpa using hroot)]
    exact List.lookup_cons_self
  · rw [if_neg hother]
    unfold entry? insert
    dsimp only
    rw [List.lookup_cons, beq_false_of_ne hother, lookup_filter_ne hother]

/-- The same entries everywhere and the same working directory.  The order in which entries are
kept does not matter. -/
structure SameAs (fs fs' : FileSystem) : Prop where
  entries : ∀ location, fs.entry? location = fs'.entry? location
  workingDirectory : fs.workingDirectory = fs'.workingDirectory

/-! ## §2 — directories -/

/-- The directories of one file system are directories of another. -/
structure DirectoriesIn (fs fs' : FileSystem) : Prop where
  directories : ∀ location, fs.entry? location = some .directory →
    fs'.entry? location = some .directory
  workingDirectory : fs.workingDirectory = fs'.workingDirectory

/-- Everything in one file system stays as it is in another, which may have more. -/
structure Grows (fs fs' : FileSystem) : Prop where
  entries : ∀ location entry, fs.entry? location = some entry → fs'.entry? location = some entry
  workingDirectory : fs.workingDirectory = fs'.workingDirectory

theorem Grows.refl (fs : FileSystem) : fs.Grows fs := ⟨fun _ _ h => h, rfl⟩

theorem Grows.trans {a b c : FileSystem} (h : a.Grows b) (h' : b.Grows c) : a.Grows c :=
  ⟨fun l e he => h'.entries l e (h.entries l e he), h.workingDirectory.trans h'.workingDirectory⟩

theorem Grows.directoriesIn {fs fs' : FileSystem} (h : fs.Grows fs') : fs.DirectoriesIn fs' :=
  ⟨fun l => h.entries l .directory, h.workingDirectory⟩

theorem DirectoriesIn.refl (fs : FileSystem) : fs.DirectoriesIn fs := ⟨fun _ h => h, rfl⟩

theorem DirectoriesIn.trans {a b c : FileSystem} (h : a.DirectoriesIn b)
    (h' : b.DirectoriesIn c) : a.DirectoriesIn c :=
  ⟨fun l hl => h'.directories l (h.directories l hl),
    h.workingDirectory.trans h'.workingDirectory⟩

theorem grows_insert {fs : FileSystem} {location : Location} (h : fs.entry? location = none)
    (entry : Entry) : fs.Grows (fs.insert location entry) := by
  refine ⟨?_, rfl⟩
  intro l e he
  rw [entry?_insert (by rw [h]; exact (Option.some_ne_none _).symm)]
  by_cases hl : l = location
  · rw [hl, h] at he
    cases he
  · rw [if_neg hl]
    exact he

/-! ## §3 — paths -/

section Paths

variable {fs fs' : FileSystem}

theorem follow_cons_of_directory {location middle : Location} {name : String}
    (h : fs.entry? location = some .directory) (he : enter location name = .ok middle)
    (names : List String) : fs.follow location (name :: names) = fs.follow middle names := by
  rw [follow, h]
  dsimp only
  rw [he]

/-- A step of a path that leads somewhere starts in a directory. -/
theorem of_follow_cons_eq_ok {location result : Location} {name : String} {names : List String}
    (h : fs.follow location (name :: names) = .ok result) :
    fs.entry? location = some .directory ∧
      ∃ middle, enter location name = .ok middle ∧ fs.follow middle names = .ok result := by
  unfold follow at h
  cases hentry : fs.entry? location with
  | none => rw [hentry] at h; cases h
  | some entry =>
    cases entry with
    | file contents => rw [hentry] at h; cases h
    | directory =>
      rw [hentry] at h
      dsimp only at h
      cases he : enter location name with
      | error e => rw [he] at h; cases h
      | ok middle =>
        rw [he] at h
        exact ⟨rfl, middle, rfl, h⟩

/-- Following names needs nothing but the directories on the way. -/
theorem follow_of_directoriesIn (h : fs.DirectoriesIn fs') {names : List String}
    {location result : Location} (hf : fs.follow location names = .ok result) :
    fs'.follow location names = .ok result := by
  induction names generalizing location with
  | nil => exact hf
  | cons name names ih =>
    obtain ⟨hdir, middle, he, hf⟩ := of_follow_cons_eq_ok hf
    rw [follow_cons_of_directory (h.directories location hdir) he]
    exact ih hf

/-- Where a path begins. -/
def start (fs : FileSystem) (p : Path) : Location :=
  if p.isAbsolute then [] else fs.workingDirectory

/-- A path that leads somewhere with one list of names is followed with every other. -/
theorem resolve_eq_follow {p : Path} {names : List String} {result : Location}
    (h : fs.resolve p names = .ok result) (fs' : FileSystem) (names' : List String) :
    fs'.resolve p names' = fs'.follow (fs'.start p) names' := by
  unfold resolve at h ⊢
  by_cases hempty : p.text.isEmpty = true
  · rw [if_pos hempty] at h
    cases h
  rw [if_neg hempty] at h ⊢
  by_cases hnul : p.text.toList.contains '\x00' = true
  · rw [if_pos hnul] at h
    cases h
  rw [if_neg hnul] at h ⊢
  by_cases hlong : maxPath < p.text.utf8ByteSize
  · rw [if_pos hlong] at h
    cases h
  rw [if_neg hlong]
  rfl

theorem resolve_of_directoriesIn (h : fs.DirectoriesIn fs') {p : Path} {names : List String}
    {result : Location} (hr : fs.resolve p names = .ok result) :
    fs'.resolve p names = .ok result := by
  rw [resolve_eq_follow hr]
  rw [resolve_eq_follow hr] at hr
  unfold start at hr ⊢
  rw [← h.workingDirectory]
  exact follow_of_directoriesIn h hr

end Paths

end FileSystem

/-! ## §4 — slashes at the end -/

theorem splitSlashes_ne_nil (cs : List Char) : splitSlashes cs ≠ [] := by
  cases cs with
  | nil => exact List.cons_ne_nil _ _
  | cons c cs =>
    unfold splitSlashes
    split
    · exact List.cons_ne_nil _ _
    · split
      · exact List.cons_ne_nil _ _
      · exact List.cons_ne_nil _ _

/-- What stands behind a slash is cut on its own. -/
theorem splitSlashes_append_cons (cs ds : List Char) :
    splitSlashes (cs ++ '/' :: ds) = splitSlashes cs ++ splitSlashes ds := by
  induction cs with
  | nil => rfl
  | cons c cs ih =>
    rw [List.cons_append, splitSlashes, splitSlashes]
    by_cases hc : c = '/'
    · rw [if_pos hc, if_pos hc, ih]
      rfl
    · rw [if_neg hc, if_neg hc, ih]
      obtain ⟨piece, pieces, hp⟩ := List.exists_cons_of_ne_nil (splitSlashes_ne_nil cs)
      rw [hp]
      rfl

/-- A slash at the end is an empty piece more. -/
theorem splitSlashes_append_slash (cs : List Char) :
    splitSlashes (cs ++ ['/']) = splitSlashes cs ++ [[]] :=
  splitSlashes_append_cons cs []

theorem splitSlashes_append_slashes (cs : List Char) (k : Nat) :
    splitSlashes (cs ++ List.replicate k '/') = splitSlashes cs ++ List.replicate k [] := by
  induction k with
  | zero => rw [List.replicate_zero, List.replicate_zero, List.append_nil, List.append_nil]
  | succ k ih =>
    rw [List.replicate_succ', ← List.append_assoc, splitSlashes_append_slash, ih,
      List.append_assoc, ← List.replicate_succ']

/-- What `trimSlashes` cuts off is slashes. -/
theorem Path.exists_slashes (p : Path) :
    ∃ k, p.text.toList = p.trimSlashes.text.toList ++ List.replicate k '/' := by
  have hsplit : p.text.toList = (p.text.toList.reverse.dropWhile (· = '/')).reverse ++
      (p.text.toList.reverse.takeWhile (· = '/')).reverse := by
    rw [← List.reverse_append, List.takeWhile_append_dropWhile, List.reverse_reverse]
  have hslashes : (p.text.toList.reverse.takeWhile (· = '/')).reverse =
      List.replicate (p.text.toList.reverse.takeWhile (· = '/')).length '/' := by
    rw [List.eq_replicate_iff]
    refine ⟨List.length_reverse, ?_⟩
    intro c hc
    simpa using List.mem_takeWhile_imp (List.mem_reverse.mp hc)
  rw [hslashes] at hsplit
  generalize (p.text.toList.reverse.takeWhile (· = '/')).length = k at hsplit
  unfold trimSlashes
  dsimp only
  generalize (p.text.toList.reverse.dropWhile (· = '/')).reverse = kept at hsplit
  -- a path of slashes alone keeps one of them
  by_cases hkept : kept.isEmpty = true
  · rw [if_pos hkept, String.toList_ofList]
    rw [List.isEmpty_iff.mp hkept, List.nil_append] at hsplit
    rw [hsplit]
    cases k with
    | zero => exact ⟨0, rfl⟩
    | succ k => exact ⟨k, rfl⟩
  · rw [if_neg hkept, String.toList_ofList]
    exact ⟨k, hsplit⟩

theorem Path.pieces_eq_trimmed (p : Path) :
    ∃ k, p.pieces = p.trimSlashes.pieces ++ List.replicate k "" := by
  obtain ⟨k, hk⟩ := p.exists_slashes
  refine ⟨k, ?_⟩
  unfold pieces
  rw [hk, splitSlashes_append_slashes, List.map_append, List.map_replicate]

namespace FileSystem

variable {fs fs' : FileSystem}

/-- Behind an empty name a path leads to a directory, and stays there. -/
theorem follow_replicate_of_directory {location : Location}
    (h : fs.entry? location = some .directory) (k : Nat) :
    fs.follow location (List.replicate k "") = .ok location := by
  induction k with
  | zero => rfl
  | succ k ih =>
    rw [List.replicate_succ, follow_cons_of_directory h (if_pos (.inl rfl))]
    exact ih

theorem follow_append_of_ok {location middle : Location} {names : List String}
    (h : fs.follow location names = .ok middle) (more : List String) :
    fs.follow location (names ++ more) = fs.follow middle more := by
  induction names generalizing location with
  | nil =>
    obtain rfl := Except.ok.inj h
    rfl
  | cons name names ih =>
    obtain ⟨hdir, next, he, h⟩ := of_follow_cons_eq_ok h
    rw [List.cons_append, follow_cons_of_directory hdir he]
    exact ih h

/-- If all of a path leads somewhere, its first names do. -/
theorem exists_of_follow_append_eq_ok {location result : Location} {names more : List String}
    (h : fs.follow location (names ++ more) = .ok result) :
    ∃ middle, fs.follow location names = .ok middle ∧ fs.follow middle more = .ok result := by
  induction names generalizing location with
  | nil => exact ⟨location, rfl, h⟩
  | cons name names ih =>
    rw [List.cons_append] at h
    obtain ⟨hdir, next, he, h⟩ := of_follow_cons_eq_ok h
    obtain ⟨middle, hmiddle, hrest⟩ := ih h
    exact ⟨middle, (follow_cons_of_directory hdir he names).trans hmiddle, hrest⟩

/-- A path leads to a directory exactly if it does so without the slashes at its end. -/
theorem locate_directory_iff {p : Path} {location : Location}
    (h : fs.entry? location = some .directory) :
    fs.locate p = .ok location ↔ fs.locateTrimmed p = .ok location := by
  obtain ⟨k, hk⟩ := p.pieces_eq_trimmed
  unfold locate locateTrimmed
  constructor
  · intro hl
    have hfollow := resolve_eq_follow hl fs
    rw [hfollow] at hl ⊢
    rw [hk] at hl
    -- the names that trimming cuts off are empty
    obtain ⟨middle, hmiddle, hrest⟩ := exists_of_follow_append_eq_ok hl
    cases k with
    | zero =>
      obtain rfl := Except.ok.inj hrest
      exact hmiddle
    | succ k =>
      obtain ⟨hdir, -⟩ := of_follow_cons_eq_ok hrest
      rw [follow_replicate_of_directory hdir] at hrest
      obtain rfl := Except.ok.inj hrest
      exact hmiddle
  · intro hl
    have hfollow := resolve_eq_follow hl fs
    rw [hfollow] at hl ⊢
    rw [hk, follow_append_of_ok hl]
    exact follow_replicate_of_directory h k

/-! ## §5 — making directories -/

/-- What a path leads to is what is at its location. -/
theorem lookup_eq_ok_iff {p : Path} {entry : Entry} :
    fs.lookup p = .ok entry ↔
      ∃ location, fs.locate p = .ok location ∧ fs.entry? location = some entry := by
  unfold lookup
  cases hl : fs.locate p with
  | error e => simp [bind, Except.bind]
  | ok location =>
    cases he : fs.entry? location with
    | none => simp [bind, Except.bind, he, throw, throwThe, MonadExceptOf.throw]
    | some found => simp [bind, Except.bind, he, pure, Except.pure]

theorem isDirectory_iff {p : Path} :
    fs.isDirectory p = true ↔
      ∃ location, fs.locateTrimmed p = .ok location ∧ fs.entry? location = some .directory := by
  have hlookup : fs.isDirectory p = true ↔ fs.lookup p = .ok .directory := by
    unfold isDirectory
    cases fs.lookup p with
    | error e => simp
    | ok entry => cases entry <;> simp
  rw [hlookup, lookup_eq_ok_iff]
  constructor
  · rintro ⟨location, hl, he⟩
    exact ⟨location, (locate_directory_iff he).mp hl, he⟩
  · rintro ⟨location, hl, he⟩
    exact ⟨location, (locate_directory_iff he).mpr hl, he⟩

theorem isDirectory_of_directoriesIn (h : fs.DirectoriesIn fs') {p : Path}
    (hp : fs.isDirectory p = true) : fs'.isDirectory p = true := by
  obtain ⟨location, hl, he⟩ := isDirectory_iff.mp hp
  exact isDirectory_iff.mpr ⟨location, resolve_of_directoriesIn h hl, h.directories location he⟩

/-- A new directory, and what it takes to make it. -/
theorem of_makeDirectory_eq_ok {p : Path} (h : fs.makeDirectory p = .ok fs') :
    ∃ location, fs.locateTrimmed p = .ok location ∧ fs.entry? location = none ∧
      fs' = fs.insert location .directory := by
  unfold makeDirectory at h
  cases hl : fs.locateTrimmed p with
  | error e => rw [hl] at h; cases h
  | ok location =>
    rw [hl] at h
    simp only [bind, Except.bind] at h
    cases he : fs.entry? location with
    | some entry => rw [he] at h; cases h
    | none =>
      rw [he] at h
      exact ⟨location, rfl, he, (Except.ok.inj h).symm⟩

theorem grows_of_makeDirectory {p : Path} (h : fs.makeDirectory p = .ok fs') : fs.Grows fs' := by
  obtain ⟨location, -, hnone, rfl⟩ := of_makeDirectory_eq_ok h
  exact grows_insert hnone .directory

theorem isDirectory_of_makeDirectory {p : Path} (h : fs.makeDirectory p = .ok fs') :
    fs'.isDirectory p = true := by
  have hgrows := grows_of_makeDirectory h
  obtain ⟨location, hl, hnone, rfl⟩ := of_makeDirectory_eq_ok h
  refine isDirectory_iff.mpr ⟨location, resolve_of_directoriesIn hgrows.directoriesIn hl, ?_⟩
  rw [entry?_insert (by rw [hnone]; exact (Option.some_ne_none _).symm), if_pos rfl]

/-- Is a path a directory, as far as making it is concerned?  The empty path counts as made. -/
def Made (fs : FileSystem) (p : Path) : Prop := p.text.isEmpty = true ∨ fs.isDirectory p = true

theorem Made.mono {p : Path} (h : fs.DirectoriesIn fs') (hp : fs.Made p) : fs'.Made p :=
  hp.imp_right (isDirectory_of_directoriesIn h)

/-- **Making a directory again changes nothing.** -/
theorem makeDirectories_of_made {p : Path} (h : fs.Made p) :
    fs.makeDirectories p = (.ok (), fs) := by
  unfold makeDirectories makeDirectoriesWith
  by_cases hempty : p.text.isEmpty = true
  · rw [if_pos hempty]
  rw [if_neg hempty]
  have hdir := h.resolve_left hempty
  obtain ⟨location, hl, he⟩ := isDirectory_iff.mp hdir
  -- the attempt fails, and the directory that is in the way is taken for the new one
  have hexists : fs.makeDirectory p = .error .alreadyExists := by
    unfold makeDirectory
    rw [hl]
    simp only [bind, Except.bind, he]
    rfl
  rw [hexists]
  dsimp only
  rw [if_pos hdir]

/-- Making a directory with its parents adds directories, and the path itself if it succeeds. -/
theorem makeDirectoriesWith_spec (fuel : Nat) (p : Path) (fs : FileSystem) :
    fs.Grows (makeDirectoriesWith fuel p fs).2 ∧
      ((makeDirectoriesWith fuel p fs).1 = .ok () → (makeDirectoriesWith fuel p fs).2.Made p) := by
  induction fuel generalizing p fs with
  | zero => exact ⟨Grows.refl fs, fun h => by cases h⟩
  | succ fuel ih =>
    -- a directory that is already there counts as made
    have hthere : ∀ (g : FileSystem) (e : FileError),
        (if g.isDirectory p then Except.ok () else Except.error e) = Except.ok () → g.Made p := by
      intro g e h
      by_cases hdir : g.isDirectory p = true
      · exact .inr hdir
      · rw [if_neg hdir] at h
        cases h
    unfold makeDirectoriesWith
    by_cases hempty : p.text.isEmpty = true
    · rw [if_pos hempty]
      exact ⟨Grows.refl fs, fun _ => .inl hempty⟩
    rw [if_neg hempty]
    cases hmake : fs.makeDirectory p with
    | ok made =>
      exact ⟨grows_of_makeDirectory hmake, fun _ => .inr (isDirectory_of_makeDirectory hmake)⟩
    | error e =>
      cases e with
      | notFound =>
        dsimp only
        cases hparent : p.parent? with
        | none => exact ⟨Grows.refl fs, fun h => by cases h⟩
        | some parent =>
          dsimp only
          -- the parent comes first, and what was made for it stays
          obtain ⟨hgrows, -⟩ := ih parent fs
          generalize makeDirectoriesWith fuel parent fs = r at hgrows ⊢
          obtain ⟨answer, below⟩ := r
          cases answer with
          | error e => exact ⟨hgrows, fun h => by cases h⟩
          | ok u =>
            dsimp only at hgrows ⊢
            cases hagain : below.makeDirectory p with
            | ok made =>
              exact ⟨hgrows.trans (grows_of_makeDirectory hagain),
                fun _ => .inr (isDirectory_of_makeDirectory hagain)⟩
            | error e => exact ⟨hgrows, hthere below e⟩
      | _ => exact ⟨Grows.refl fs, hthere fs _⟩

theorem grows_makeDirectories (fs : FileSystem) (p : Path) : fs.Grows (fs.makeDirectories p).2 :=
  (makeDirectoriesWith_spec _ p fs).1

theorem made_of_makeDirectories {p : Path} (h : fs.makeDirectories p = (.ok (), fs')) :
    fs'.Made p := by
  have hspec := (makeDirectoriesWith_spec (p.text.length + 1) p fs).2
  unfold makeDirectories at h
  rw [h] at hspec
  exact hspec rfl

/-! ## §6 — reading and writing -/

/-- The same directories and the same working directory. -/
structure SameDirectories (fs fs' : FileSystem) : Prop where
  into : fs.DirectoriesIn fs'
  back : fs'.DirectoriesIn fs

theorem SameDirectories.refl (fs : FileSystem) : fs.SameDirectories fs :=
  ⟨.refl fs, .refl fs⟩

theorem SameDirectories.symm (h : fs.SameDirectories fs') : fs'.SameDirectories fs :=
  ⟨h.back, h.into⟩

theorem SameDirectories.trans {a b c : FileSystem} (h : a.SameDirectories b)
    (h' : b.SameDirectories c) : a.SameDirectories c :=
  ⟨h.into.trans h'.into, h'.back.trans h.back⟩

/-- A path leads to a location where a file is or can be. -/
structure WritableAt (fs : FileSystem) (p : Path) (location : Location) : Prop where
  located : fs.locateTrimmed p = .ok location
  trimmed : p.trimSlashes = p
  notDirectory : fs.entry? location ≠ some .directory

theorem WritableAt.mono {p : Path} {location : Location} (h : fs.WritableAt p location)
    (hdirs : fs.SameDirectories fs') : fs'.WritableAt p location :=
  ⟨resolve_of_directoriesIn hdirs.into h.located, h.trimmed,
    fun hdir => h.notDirectory (hdirs.back.directories location hdir)⟩

theorem of_write_eq_ok {p : Path} {contents : Bytes} (h : fs.write p contents = .ok fs') :
    ∃ location, fs.WritableAt p location ∧ fs' = fs.insert location (.file contents) := by
  unfold write at h
  cases hl : fs.locateTrimmed p with
  | error e => rw [hl] at h; cases h
  | ok location =>
    rw [hl] at h
    by_cases htrim : p.trimSlashes = p
    · simp only [bind, Except.bind, htrim, ne_eq, not_true_eq_false, if_false, pure,
        Except.pure] at h
      refine ⟨location, ⟨hl, htrim, ?_⟩, ?_⟩
      · intro hdir
        rw [hdir] at h
        cases h
      · cases he : fs.entry? location with
        | none => rw [he] at h; exact (Except.ok.inj h).symm
        | some entry =>
          cases entry with
          | directory => rw [he] at h; cases h
          | file old => rw [he] at h; exact (Except.ok.inj h).symm
    · simp only [bind, Except.bind, htrim, ne_eq, not_false_eq_true, if_true] at h
      cases h

theorem WritableAt.write {p : Path} {location : Location} (h : fs.WritableAt p location)
    (contents : Bytes) : fs.write p contents = .ok (fs.insert location (.file contents)) := by
  unfold FileSystem.write
  rw [h.located]
  simp only [bind, Except.bind, h.trimmed, ne_eq, not_true_eq_false, if_false, pure, Except.pure]
  cases he : fs.entry? location with
  | none => rfl
  | some entry =>
    cases entry with
    | directory => exact absurd he h.notDirectory
    | file old => rfl

theorem WritableAt.sameDirectories {p : Path} {location : Location} (h : fs.WritableAt p location)
    (contents : Bytes) : fs.SameDirectories (fs.insert location (.file contents)) := by
  refine ⟨⟨?_, rfl⟩, ⟨?_, rfl⟩⟩
  · intro l hl
    rw [entry?_insert h.notDirectory]
    by_cases heq : l = location
    · rw [heq] at hl
      exact absurd hl h.notDirectory
    · rw [if_neg heq]
      exact hl
  · intro l hl
    rw [entry?_insert h.notDirectory] at hl
    by_cases heq : l = location
    · rw [if_pos heq] at hl
      cases hl
    · rw [if_neg heq] at hl
      exact hl

theorem read_eq_ok_iff {p : Path} {contents : Bytes} :
    fs.read p = .ok contents ↔
      ∃ location, fs.locate p = .ok location ∧ fs.entry? location = some (.file contents) := by
  rw [← lookup_eq_ok_iff]
  unfold read
  cases fs.lookup p with
  | error e => simp [bind, Except.bind]
  | ok entry =>
    cases entry with
    | directory => simp [bind, Except.bind, throw, throwThe, MonadExceptOf.throw]
    | file old => simp [bind, Except.bind, pure, Except.pure]

end FileSystem

end WorkloadSynth
