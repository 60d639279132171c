import Multimeter.Proofs.Files.Change

/-!
# Keeping the files as they are

* `FileTree.Keeps`: a computation leaves a given tree as it is; `FileTree.ReadOnly`: every tree.
* `FileTree.ReadOnly.bind` and its likes: sequences of such computations, with and without failures.
* `FileTree.attempt`: the result of an attempt that may fail; `FileTree.Keeps.attempt_bind_eq_ok`: a
  sequence succeeds with its parts.
* `FileTree.keeps_createDirectories`: directories that are there are not created.
-/

namespace Multimeter.FileTree

variable {ε α β : Type} {tree : FileTree}

def Keeps (tree : FileTree) (x : StateM FileTree α) : Prop := ∃ a, x.run tree = (a, tree)

/-- The result of an attempt, and the tree behind it. -/
def attempt (tree : FileTree) (x : ExceptT ε (StateM FileTree) α) : Except ε α × FileTree :=
  x.run.run tree

def ReadOnly (x : StateM FileTree α) : Prop := ∀ tree, Keeps tree x

/-! ## Without failures -/

theorem run_bind_of_eq {x : StateM FileTree α} {f : α → StateM FileTree β} {a : α}
    {mid : FileTree} (h : x.run tree = (a, mid)) : (x >>= f).run tree = (f a).run mid := by
  have hrun : (x >>= f).run tree = (f (x.run tree).1).run (x.run tree).2 := rfl
  rw [hrun, h]

theorem keeps_pure (a : α) : Keeps tree (pure a) := ⟨a, rfl⟩

theorem Keeps.bind {x : StateM FileTree α} {f : α → StateM FileTree β} (hx : Keeps tree x)
    (hf : ∀ a, x.run tree = (a, tree) → Keeps tree (f a)) : Keeps tree (x >>= f) := by
  obtain ⟨a, ha⟩ := hx
  obtain ⟨b, hb⟩ := hf a ha
  exact ⟨b, by rw [run_bind_of_eq ha, hb]⟩

theorem readOnly_pure (a : α) : ReadOnly (pure a) := fun _ => keeps_pure a

theorem ReadOnly.bind {x : StateM FileTree α} {f : α → StateM FileTree β} (hx : ReadOnly x)
    (hf : ∀ a, ReadOnly (f a)) : ReadOnly (x >>= f) :=
  fun tree => (hx tree).bind fun a _ => hf a tree

theorem readOnly_filterM {p : α → StateM FileTree Bool} (h : ∀ a, ReadOnly (p a)) (l : List α) :
    ReadOnly (l.filterM p) := by
  have haux (l kept : List α) : ReadOnly (List.filterAuxM p l kept) := by
    induction l generalizing kept with
    | nil => exact readOnly_pure kept
    | cons a l ih => exact (h a).bind fun b => ih _
  exact (haux l []).bind fun kept => readOnly_pure _

/-! ## With failures -/

section

variable {x : ExceptT ε (StateM FileTree) α} {f : α → ExceptT ε (StateM FileTree) β}

theorem readOnly_run_pure (a : α) : ReadOnly (pure a : ExceptT ε (StateM FileTree) α).run :=
  readOnly_pure _

theorem readOnly_run_throw (e : ε) : ReadOnly (throw e : ExceptT ε (StateM FileTree) α).run :=
  readOnly_pure _

theorem ReadOnly.run_liftM {x : StateM FileTree α} (h : ReadOnly x) :
    ReadOnly (liftM x : ExceptT ε (StateM FileTree) α).run :=
  h.bind fun _ => readOnly_pure _

theorem ReadOnly.run_bind (hx : ReadOnly x.run) (hf : ∀ a, ReadOnly (f a).run) :
    ReadOnly (x >>= f).run := by
  rw [ExceptT.run_bind]
  refine hx.bind fun result => ?_
  cases result with
  | error e => exact readOnly_pure _
  | ok a => exact hf a

theorem readOnly_run_ite {c : Prop} [Decidable c] {x y : ExceptT ε (StateM FileTree) α}
    (hx : ReadOnly x.run) (hy : ReadOnly y.run) : ReadOnly (if c then x else y).run := by
  split_ifs
  · exact hx
  · exact hy

theorem readOnly_run_check {c : Prop} [Decidable c] {e : ε}
    {rest : PUnit → ExceptT ε (StateM FileTree) β} (h : ReadOnly (rest ()).run) :
    ReadOnly (if c then throw e >>= rest else rest ()).run :=
  readOnly_run_ite ((readOnly_run_throw e).run_bind fun _ => h) h

theorem readOnly_run_flatMapM {f : α → ExceptT ε (StateM FileTree) (List β)}
    (h : ∀ a, ReadOnly (f a).run) (l : List α) : ReadOnly (l.flatMapM f).run := by
  have hloop (l : List α) (found : List (List β)) :
      ReadOnly (List.flatMapM.loop f l found).run := by
    induction l generalizing found with
    | nil => exact readOnly_run_pure _
    | cons a l ih => exact (h a).run_bind fun _ => ih _
  exact hloop l []

theorem attempt_bind_of_ok {a : α} {mid : FileTree} (h : tree.attempt x = (.ok a, mid)) :
    tree.attempt (x >>= f) = mid.attempt (f a) := by
  have hrun : x.run.run tree = (.ok a, mid) := h
  rw [attempt, ExceptT.run_bind, run_bind_of_eq hrun]
  rfl

theorem attempt_bind_of_error {e : ε} {mid : FileTree} (h : tree.attempt x = (.error e, mid)) :
    tree.attempt (x >>= f) = (.error e, mid) := by
  have hrun : x.run.run tree = (.error e, mid) := h
  rw [attempt, ExceptT.run_bind, run_bind_of_eq hrun]
  rfl

theorem attempt_liftM {x : StateM FileTree α} {a : α} {mid : FileTree}
    (h : x.run tree = (a, mid)) :
    tree.attempt (liftM x : ExceptT ε (StateM FileTree) α) = (.ok a, mid) := by
  have hrun : (liftM x : ExceptT ε (StateM FileTree) α).run = Except.ok <$> x := rfl
  rw [attempt, hrun, map_eq_pure_bind, run_bind_of_eq h]
  rfl

theorem Keeps.attempt_bind_eq_ok (hx : Keeps tree x.run) {b : β} {after : FileTree}
    (h : tree.attempt (x >>= f) = (.ok b, after)) :
    ∃ a, tree.attempt x = (.ok a, tree) ∧ tree.attempt (f a) = (.ok b, after) := by
  obtain ⟨result, hresult⟩ := hx
  cases result with
  | error e =>
    rw [attempt_bind_of_error hresult] at h
    exact nomatch h
  | ok a =>
    rw [attempt_bind_of_ok hresult] at h
    exact ⟨a, hresult, h⟩

theorem attempt_check_eq_ok {c : Prop} [Decidable c] {e : ε}
    {rest : PUnit → ExceptT ε (StateM FileTree) β} {b : β} {after : FileTree}
    (h : tree.attempt (if c then throw e >>= rest else rest ()) = (.ok b, after)) :
    ¬ c ∧ tree.attempt (rest ()) = (.ok b, after) := by
  split_ifs at h with hc
  · exact nomatch h
  · exact ⟨hc, h⟩

end

/-! ## Files -/

theorem readOnly_metadata (path : Path) :
    ReadOnly (FileAccess.metadata path : StateM FileTree _) := fun _ => ⟨_, rfl⟩

theorem run_metadata {path : Path} {spot : Spot} (h : tree.find path = .ok spot) :
    (FileAccess.metadata path : StateM FileTree _).run tree = (.ok spot.entry.metadata, tree) := by
  change ((tree.find path).map (·.entry.metadata), tree) = _
  rw [h]
  rfl

theorem run_locate {path : Path} {result : Except FileError Location}
    (h : tree.locate path = result) :
    (FileAccess.locate path : StateM FileTree _).run tree = (result, tree) := by
  change (tree.locate path, tree) = _
  rw [h]

theorem run_write_of_ok {path : Path} {contents : List UInt8} {after : FileTree}
    (h : tree.writeFile path contents = .ok after) :
    (FileAccess.write path contents : StateM FileTree _).run tree = (.ok (), after) := by
  change FileTree.change (·.writeFile path contents) tree = _
  rw [FileTree.change, h]

theorem run_write_of_error {path : Path} {contents : List UInt8} {e : FileError}
    (h : tree.writeFile path contents = .error e) :
    (FileAccess.write path contents : StateM FileTree _).run tree = (.error e, tree) := by
  change FileTree.change (·.writeFile path contents) tree = _
  rw [FileTree.change, h]

theorem readOnly_children (path : Path) :
    ReadOnly (FileAccess.children path : StateM FileTree _) := fun _ => ⟨_, rfl⟩

theorem readOnly_contents (path : Path) :
    ReadOnly (FileAccess.contents path : StateM FileTree _) := fun _ => ⟨_, rfl⟩

theorem readOnly_locate (path : Path) :
    ReadOnly (FileAccess.locate path : StateM FileTree _) := fun _ => ⟨_, rfl⟩

theorem readOnly_pathExists (path : Path) :
    ReadOnly (FileAccess.pathExists path : StateM FileTree Bool) :=
  (readOnly_metadata path).bind fun _ => readOnly_pure _

theorem readOnly_isFile (path : Path) :
    ReadOnly (FileAccess.isFile path : StateM FileTree Bool) :=
  (readOnly_metadata path).bind fun found => by
    cases found <;> exact readOnly_pure _

theorem readOnly_isDirectory (path : Path) :
    ReadOnly (FileAccess.isDirectory path : StateM FileTree Bool) :=
  (readOnly_metadata path).bind fun found => by
    cases found <;> exact readOnly_pure _

/-! ## Creating directories -/

theorem createUnlessThere_of_error {path : Path} {e : FileError}
    (h : tree.makeDirectory path = .error e) :
    ∃ result, (FileAccess.createUnlessThere path : StateM FileTree _).run tree = (result, tree) ∧
      (result = .ok () ∨ result = .error e) := by
  have hcreate : (FileAccess.createDirectory path : StateM FileTree _).run tree =
      (.error e, tree) := by
    have hrun : (FileAccess.createDirectory path : StateM FileTree _).run tree =
        FileTree.change (·.makeDirectory path) tree := rfl
    rw [hrun, FileTree.change, h]
  obtain ⟨there, hthere⟩ := readOnly_isDirectory path tree
  refine ⟨if there then .ok () else .error e, ?_, by cases there <;> simp⟩
  rw [FileAccess.createUnlessThere, run_bind_of_eq hcreate, run_bind_of_eq hthere]
  rfl

theorem keeps_createDirectories {path : Path} {place : Location}
    (h : tree.locate path = .ok place) :
    Keeps tree (FileAccess.createDirectories path : StateM FileTree _) := by
  obtain ⟨e, hmake, he⟩ : ∃ e, tree.makeDirectory path = .error e ∧ e ≠ .notFound := by
    obtain h | h := makeDirectory_of_locate h
    · exact ⟨_, h, nofun⟩
    · exact ⟨_, h, nofun⟩
  obtain ⟨result, hrun, hresult⟩ := createUnlessThere_of_error hmake
  rw [FileAccess.createDirectories, FileAccess.createUpward]
  split_ifs with hempty
  · exact keeps_pure _
  · refine ⟨result, ?_⟩
    rw [run_bind_of_eq hrun]
    split
    · simp_all
    · rfl

theorem run_createDirectories {path : Path} {place : Location} {spot : Spot}
    (hlocate : tree.locate path = .ok place) (hfind : tree.find path = .ok spot)
    (hdirectory : spot.entry.isDirectory) :
    (FileAccess.createDirectories path : StateM FileTree _).run tree = (.ok (), tree) := by
  obtain ⟨e, hmake⟩ : ∃ e, tree.makeDirectory path = .error e := by
    obtain h | h := makeDirectory_of_locate hlocate
    · exact ⟨_, h⟩
    · exact ⟨_, h⟩
  have hcreate : (FileAccess.createDirectory path : StateM FileTree _).run tree =
      (.error e, tree) := by
    change FileTree.change (·.makeDirectory path) tree = _
    rw [FileTree.change, hmake]
  have hthere : (FileAccess.isDirectory path : StateM FileTree _).run tree = (true, tree) := by
    obtain ⟨children, hentry⟩ := isDirectory_iff.mp hdirectory
    rw [FileAccess.isDirectory, run_bind_of_eq (run_metadata hfind), hentry]
    rfl
  have hunless : (FileAccess.createUnlessThere path : StateM FileTree _).run tree =
      (.ok (), tree) := by
    rw [FileAccess.createUnlessThere, run_bind_of_eq hcreate, run_bind_of_eq hthere]
    rfl
  rw [FileAccess.createDirectories, FileAccess.createUpward]
  split_ifs with hempty
  · rfl
  · rw [run_bind_of_eq hunless]
    rfl

end Multimeter.FileTree
