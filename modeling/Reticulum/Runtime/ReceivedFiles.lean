import Reticulum.Foundation.MessagePack

/-!
# Files that are received

The listener of `rncp` saves a received resource under the name in its metadata. It keeps the last
component of the name where that is an ordinary one, and the whole name otherwise; if the path is
taken, it appends numbers until one is free. For a name such as `../` the path is a directory and so
is taken, and the number makes it the path of a file outside of the directory for saved files.

## Main definitions

* `components`, `join`, `fileName` — paths.
* `FileSystem` — directories and files, without symbolic links.
* `extractFilename`, `savePayload` — the name and the path of a received file.

## Main results

* `components_join` — an ordinary name behind a directory is one more component.
* `saved_inside_iff` — when a saved file is in the directory for saved files.
-/

namespace Reticulum.Runtime

open MessagePack List Option

/-! ### Paths -/

/-- The separator of paths. -/
def slash : UInt8 := 0x2f

def dot : UInt8 := 0x2e

/-- `std::path::Component`. -/
inductive Component
  | rootDir
  | curDir
  | parentDir
  | normal (name : Bytes)
  deriving DecidableEq

/-- What stands between two separators: repeated separators and `.` are no components. -/
def component (piece : Bytes) : Option Component :=
  if piece = [] ∨ piece = [dot] then none
  else if piece = [dot, dot] then some .parentDir
  else some (.normal piece)

/-- `Path::components`. -/
def components (path : Bytes) : List Component :=
  (if path.head? = some slash then [.rootDir]
    else if (path.splitOn slash).head? = some [dot] then [.curDir] else []) ++
      (path.splitOn slash).filterMap component

/-- `Path::file_name`. -/
def fileName (path : Bytes) : Option Bytes :=
  match (components path).getLast? with
  | some (.normal name) => some name
  | _ => none

/-- `Path::join`. -/
def join (dir path : Bytes) : Bytes :=
  if path.head? = some slash then path
  else if dir = [] ∨ dir.getLast? = some slash then dir ++ path
  else dir ++ [slash] ++ path

/-- What stands before the last piece of a path. -/
def directory (path : Bytes) : Bytes := path.rdropWhile (· ≠ slash)

section Paths

variable {x q path name : Bytes}

/-- A front part of a path that a piece may follow. -/
def Front (x : Bytes) : Prop := x = [] ∨ x.getLast? = some slash

/-- The name of a file or of a directory. -/
structure Ordinary (q : Bytes) : Prop where
  slash : slash ∉ q
  component : component q = some (.normal q)

theorem eq_of_component {p : Bytes} (h : component p = some (.normal q)) : p = q := by
  unfold component at h
  split_ifs at h
  · cases h
  · exact Component.normal.inj (some.inj h)

theorem Front.cases (hx : Front x) : x = [] ∨ ∃ y, x = y ++ [slash] :=
  hx.imp_right getLast?_eq_some_iff.mp

/-- The pieces of a path, but for the last one, are those of its front. -/
theorem splitOn_front (hx : Front x) : ∃ init, ∀ q, slash ∉ q →
    (x ++ q).splitOn slash = init ++ [q] := by
  rcases hx.cases with rfl | ⟨y, rfl⟩
  · exact ⟨[], fun q hq => splitOn_eq_singleton hq⟩
  · refine ⟨y.splitOn slash, fun q hq => ?_⟩
    rw [append_assoc, singleton_append, splitOn_append_cons_self,
      splitOn_eq_singleton hq]

/-- What a piece adds to the components. -/
theorem filterMap_component_concat (pieces : List Bytes) (q : Bytes) :
    (pieces ++ [q]).filterMap component = pieces.filterMap component ++ (component q).toList := by
  rw [filterMap_append]
  cases h : component q <;> simp [h]

/-- An ordinary name behind a front part is one more component. -/
theorem components_front (hx : Front x) (hq : Ordinary q) :
    components (x ++ q) = components x ++ [.normal q] := by
  have hsplit := splitOn_eq_singleton hq.slash
  rcases hx.cases with rfl | ⟨y, rfl⟩
  · have hhead : q.head? ≠ some slash := fun h => hq.slash (mem_of_mem_head? h)
    have hcur : q ≠ [dot] := by
      rintro rfl
      exact absurd hq.component (by decide)
    rw [nil_append, components, hsplit, if_neg hhead, head?_cons, if_neg (by simpa using hcur)]
    exact (filterMap_cons_some hq.component).trans rfl
  · have hhead : (y ++ slash :: q).head? = (y ++ [slash]).head? := by cases y <;> rfl
    rw [append_assoc, singleton_append, components, components, hhead,
      splitOn_append_cons_self, splitOn_append_cons_self, hsplit, splitOn_nil,
      head?_append_of_ne_nil _ (splitOn_ne_nil slash y),
      head?_append_of_ne_nil _ (splitOn_ne_nil slash y), filterMap_component_concat,
      filterMap_component_concat, hq.component, append_assoc, append_assoc]
    rfl

variable (dir : Bytes)

/-- A separator at the end makes no difference. -/
theorem components_join_nil : components (join dir []) = components dir := by
  unfold join
  rw [if_neg (by simp)]
  split_ifs with h
  · rw [append_nil]
  · obtain ⟨hne, -⟩ := not_or.mp h
    rw [append_nil, components, splitOn_append_cons_self, splitOn_nil, head?_append_of_ne_nil _ hne,
      head?_append_of_ne_nil _ (splitOn_ne_nil slash dir), filterMap_component_concat]
    exact congrArg (_ ++ ·) (append_nil _)

theorem front_directory (path : Bytes) : Front (directory path) := by
  refine or_iff_not_imp_left.mpr fun h => ?_
  have hlast := rdropWhile_last_not (· ≠ slash) path h
  rw [getLast?_eq_some_getLast h]
  simpa [directory] using hlast

/-- What is joined to a directory is put behind it, or takes its place. -/
theorem join_append (hx : Front x) (hq : slash ∉ q) :
    join dir (x ++ q) = join dir x ++ q ∧ Front (join dir x) := by
  have hhead : (x ++ q).head? = some slash ↔ x.head? = some slash := by
    rcases hx.cases with rfl | ⟨y, rfl⟩
    · simpa using fun h : q.head? = some slash => hq (mem_of_mem_head? h)
    · cases y <;> simp
  have hfront {d : Bytes} (hd : Front d) : Front (d ++ x) := by
    rcases hx with rfl | hx
    · rwa [append_nil]
    · exact .inr (by rw [getLast?_append, hx, some_or])
  unfold join
  simp only [hhead]
  split_ifs with habs hdir
  · exact ⟨rfl, hx⟩
  · exact ⟨(append_assoc ..).symm, hfront hdir⟩
  · exact ⟨(append_assoc ..).symm, hfront (.inr getLast?_concat)⟩

/-- An ordinary name behind a directory is one more component. -/
theorem components_join (hx : Front x) (hq : Ordinary q) :
    components (join dir (x ++ q)) = components (join dir x) ++ [.normal q] := by
  obtain ⟨hjoin, hfront⟩ := join_append dir hx hq.slash
  rw [hjoin, components_front hfront hq]

theorem slash_not_mem_of_mem_splitOn : ∀ piece ∈ path.splitOn slash, slash ∉ piece := by
  induction path with
  | nil => simp
  | cons b path ih =>
    rw [splitOn_cons_eq_if_modifyHead]
    obtain ⟨first, rest, hsplit⟩ := exists_cons_of_ne_nil (splitOn_ne_nil slash path)
    rw [hsplit] at ih ⊢
    split_ifs with hb
    · simpa using ih
    · have hb : slash ≠ b := fun h => hb (beq_of_eq h.symm)
      simpa [hb] using ih

/-- The last component, if it is a name. -/
theorem fileName_ordinary (h : fileName path = some name) : Ordinary name := by
  have hmem : Component.normal name ∈ components path := by
    unfold fileName at h
    split at h
    next n hlast => exact some.inj h ▸ mem_of_getLast? hlast
    · cases h
  have hpiece : Component.normal name ∈ (path.splitOn slash).filterMap component := by
    refine (mem_append.mp hmem).resolve_left fun hfront => ?_
    split_ifs at hfront <;> simp at hfront
  obtain ⟨piece, hin, hpiece⟩ := mem_filterMap.mp hpiece
  obtain rfl := eq_of_component hpiece
  exact ⟨slash_not_mem_of_mem_splitOn piece hin, hpiece⟩

theorem fileName_front (hx : Front x) (hq : Ordinary q) : fileName (x ++ q) = some q := by
  rw [fileName, components_front hx hq, getLast?_concat]

end Paths

/-! ### Files -/

/-- The directories and files that exist, by the names that lead to them from the root, and the
directory that relative paths start from. -/
structure FileSystem where
  directories : List (List Bytes)
  files : List (List Bytes)
  current : List Bytes
  root : [] ∈ directories
  parent : ∀ d ∈ directories, d.dropLast ∈ directories

namespace FileSystem

/-- One piece of a path, which is looked up in a directory. -/
def walk (fs : FileSystem) (place : List Bytes) (piece : Bytes) : Option (List Bytes) :=
  if place ∉ fs.directories then none
  else match component piece with
    | some (.normal name) => some (place ++ [name])
    | some .parentDir => some place.dropLast
    | _ => some place

/-- Where a path leads. -/
def resolve (fs : FileSystem) (path : Bytes) : Option (List Bytes) :=
  (path.splitOn slash).foldlM fs.walk (if path.head? = some slash then [] else fs.current)

/-- `Path::exists`. -/
def exists_ (fs : FileSystem) (path : Bytes) : Bool :=
  (fs.resolve path).any fun place => place ∈ fs.directories ∨ place ∈ fs.files

/-- `fs::write` can create or replace the file. -/
def writable (fs : FileSystem) (path : Bytes) : Bool :=
  (fs.resolve path).any fun place => place ∉ fs.directories

end FileSystem

/-! ### The received file -/

/-- `String::from_utf8`. -/
def fromUtf8 (b : Bytes) : Option Bytes :=
  if (ByteArray.mk b.toArray).validateUTF8 then some b else none

/-- The first entry of the metadata that is called `name`. -/
def nameEntry : List (Value × Value) → Option Bytes
  | [] => none
  | (key, value) :: entries =>
    match key.asSlice with
    | none => nameEntry entries
    | some key =>
      match fromUtf8 key with
      | none => none
      | some key =>
        if key = [0x6e, 0x61, 0x6d, 0x65] then
          match value.asSlice with
          | none => nameEntry entries
          | some name => fromUtf8 name
        else nameEntry entries

/-- The name in the metadata. -/
def extractFilename (metadata : Option Bytes) : Option Bytes :=
  match metadata.bind (readValue maxDepth) with
  | some (.map entries, _) => nameEntry entries
  | _ => none

/-- A byte as two hexadecimal digits. -/
def hexByte (b : UInt8) : Bytes :=
  [b >>> 4, b &&& 15].map fun d => if d < 10 then 0x30 + d else 0x57 + d

/-- The name of a file without a name: `rncp_` and the head of the hash of the resource. -/
def defaultFileName (resourceHash : Octets 32) : Bytes :=
  [0x72, 0x6e, 0x63, 0x70, 0x5f] ++ (resourceHash.1.take 8).flatMap hexByte

/-- The name of a received file. -/
def receivedName (metadata : Option Bytes) (resourceHash : Octets 32) : Bytes :=
  (extractFilename metadata).getD (defaultFileName resourceHash)

inductive SaveError
  | emptyFilename
  | createSaveDir
  | write (path : Bytes)
  /-- All numbers are taken: the loop does not end. -/
  | noFreeName
  deriving DecidableEq

def decimal (n : ℕ) : Bytes := (Nat.toDigits 10 n).map fun c => UInt8.ofNat c.toNat

/-- The number behind a name that is taken. -/
def suffix (i : BitVec 32) : Bytes :=
  dot :: (if i.toInt < 0 then [0x2d] else []) ++ decimal i.toInt.natAbs

/-- The first path with a number that is not taken. The number wraps around. -/
def firstFree (fs : FileSystem) (saveDir basename : Bytes) : Option Bytes :=
  ((List.range' 1 (2 ^ 32)).map fun i => join saveDir (basename ++ suffix (.ofNat 32 i))).find?
    (!fs.exists_ ·)

/-- The name that a file is saved under. -/
def basename (name : Bytes) : Bytes := (fileName name).getD name

/-- The path that a file is written to, with the directories that `create_dir_all` leaves. -/
def savePayload (createDirAll : FileSystem → Bytes → Option FileSystem) (fs : FileSystem)
    (saveDir name : Bytes) (overwrite : Bool) : Except SaveError Bytes :=
  if basename name = [] then .error .emptyFilename
  else
    match createDirAll fs saveDir with
    | none => .error .createSaveDir
    | some fs =>
      let path := join saveDir (basename name)
      match if !overwrite && fs.exists_ path then firstFree fs saveDir (basename name)
        else some path with
      | none => .error .noFreeName
      | some path => if fs.writable path then .ok path else .error (.write path)

/-! ### Where files are saved -/

section Saved

variable {createDirAll : FileSystem → Bytes → Option FileSystem} {fs : FileSystem}
  {saveDir name path q : Bytes} {overwrite : Bool}

theorem of_mem_decimal {n : ℕ} {b : UInt8} (hb : b ∈ decimal n) : b ≠ slash ∧ b ≠ dot := by
  obtain ⟨c, hc, rfl⟩ := mem_map.mp hb
  have hdigit := Nat.isDigit_of_mem_toDigits (by decide) le_rfl hc
  have hrange : 48 ≤ c.toNat ∧ c.toNat ≤ 57 := by
    simpa [Char.isDigit, UInt32.le_iff_toNat_le] using hdigit
  have hvalue : (UInt8.ofNat c.toNat).toNat = c.toNat := by
    rw [UInt8.toNat_ofNat']
    omega
  constructor
  · rintro h
    have hslash := hvalue.symm.trans (congrArg UInt8.toNat h)
    have : slash.toNat = 47 := rfl
    omega
  · rintro h
    have hdot := hvalue.symm.trans (congrArg UInt8.toNat h)
    have : dot.toNat = 46 := rfl
    omega

/-- A number behind a name makes it ordinary. -/
theorem ordinary_suffix (hq : slash ∉ q) (i : BitVec 32) : Ordinary (q ++ suffix i) := by
  have hne : decimal i.toInt.natAbs ≠ [] := by simp [decimal, Nat.toDigits_ne_nil]
  obtain ⟨b, hb⟩ := exists_mem_of_ne_nil _ hne
  have hmem : b ∈ q ++ suffix i := by simp [suffix, hb]
  have hdot := (of_mem_decimal hb).2
  constructor
  · have hdigits : slash ∉ decimal i.toInt.natAbs := fun h => (of_mem_decimal h).1 rfl
    simp only [suffix, mem_append, mem_cons, not_or]
    exact ⟨hq, ⟨by decide, by split_ifs <;> decide⟩, hdigits⟩
  · rw [component, if_neg, if_neg]
    · intro h
      simp [h, hdot] at hmem
    · rintro (h | h) <;> simp [h, hdot] at hmem

/-- A path that ends in no name leads to a directory. -/
theorem FileSystem.not_writable {x : Bytes} (fs : FileSystem) (hx : Front x) (hq : slash ∉ q)
    (hname : ¬ Ordinary q) : fs.writable (x ++ q) = false := by
  obtain ⟨init, hsplit⟩ := splitOn_front hx
  have hpiece (place place' : List Bytes) (h : fs.walk place q = some place') :
      place' ∈ fs.directories := by
    unfold walk at h
    split_ifs at h with hplace
    split at h
    next name hnormal =>
      obtain rfl := eq_of_component hnormal
      exact absurd ⟨hq, hnormal⟩ hname
    · exact some.inj h ▸ fs.parent place hplace
    · exact some.inj h ▸ hplace
  rw [writable, resolve, hsplit q hq, foldlM_append]
  cases List.foldlM fs.walk _ init with
  | none => rfl
  | some place =>
    change Option.any _ ((fs.walk place q).bind some) = false
    cases hwalk : fs.walk place q with
    | none => rfl
    | some place' => simpa using hpiece place place' hwalk

/-- The name has an ordinary last component, or stays in the directory for saved files without its
last piece. -/
def Stays (saveDir name : Bytes) : Prop :=
  (fileName name).isSome ∨ components (join saveDir (directory name)) = components saveDir

/-- What a file is saved under. -/
theorem savePayload_eq_ok (h : savePayload createDirAll fs saveDir name overwrite = .ok path) :
    ∃ fs', createDirAll fs saveDir = some fs' ∧ fs'.writable path = true ∧
      (overwrite = false → fs'.exists_ path = false) ∧
      (path = join saveDir (basename name) ∨
        ∃ i, path = join saveDir (basename name ++ suffix i)) := by
  unfold savePayload at h
  split_ifs at h
  split at h
  · cases h
  next fs' hcreate =>
    refine ⟨fs', hcreate, ?_⟩
    dsimp only at h
    split at h
    · cases h
    next path' hpath =>
      split_ifs at h with hwritable
      obtain rfl := Except.ok.inj h
      refine ⟨hwritable, ?_⟩
      split_ifs at hpath with htaken
      · have hfree := find?_some hpath
        obtain ⟨i, -, rfl⟩ := mem_map.mp (mem_of_find?_eq_some hpath)
        exact ⟨fun _ => by simpa using hfree, .inr ⟨_, rfl⟩⟩
      · obtain rfl := some.inj hpath
        exact ⟨fun hkeep => by simpa [hkeep] using htaken, .inl rfl⟩

/-- **Received files.** A file that is saved is in the directory for saved files, under one ordinary
name, exactly when its name ends in such a name or has no other directory before its last piece.
Without overwriting, it did not exist. -/
theorem saved_inside_iff {metadata : Option Bytes} {resourceHash : Octets 32}
    (hcreate : ∀ fs fs' dir path, createDirAll fs dir = some fs' → fs.exists_ path → fs'.exists_ path)
    (h : savePayload createDirAll fs saveDir (receivedName metadata resourceHash) overwrite =
      .ok path) :
    ((∃ name, components path = components saveDir ++ [.normal name]) ↔
      Stays saveDir (receivedName metadata resourceHash)) ∧
    (overwrite = false → fs.exists_ path = false) := by
  generalize receivedName metadata resourceHash = name at h ⊢
  obtain ⟨fs', hfs', hwritable, hfree, hpath⟩ := savePayload_eq_ok h
  refine ⟨?_, fun hkeep => ?_⟩
  · cases hname : fileName name with
    | some base =>
      have hbase := fileName_ordinary hname
      have hinside (q : Bytes) (hq : Ordinary q) :
          components (join saveDir q) = components saveDir ++ [.normal q] := by
        rw [← components_join_nil saveDir]
        exact components_join saveDir (.inl rfl) hq
      rw [basename, hname, getD_some] at hpath
      refine iff_of_true ?_ (.inl (isSome_iff_exists.mpr ⟨base, hname⟩))
      rcases hpath with rfl | ⟨i, rfl⟩
      · exact ⟨_, hinside base hbase⟩
      · exact ⟨_, hinside _ (ordinary_suffix hbase.slash i)⟩
    | none =>
      have hsplit : directory name ++ name.rtakeWhile (· ≠ slash) = name :=
        rdropWhile_append_rtakeWhile
      have hpiece : slash ∉ name.rtakeWhile (· ≠ slash) := fun hmem => by
        simpa using mem_rtakeWhile_imp hmem
      have hfront := front_directory name
      generalize name.rtakeWhile (· ≠ slash) = piece at hsplit hpiece
      rw [basename, hname, getD_none, ← hsplit] at hpath
      rcases hpath with rfl | ⟨i, rfl⟩
      · -- The whole name ends in no ordinary one, and leads to a directory.
        obtain ⟨hjoin, hfront'⟩ := join_append saveDir hfront hpiece
        have hdir : ¬ Ordinary piece := fun hordinary => by
          rw [← hsplit, fileName_front hfront hordinary] at hname
          cases hname
        rw [hjoin, fs'.not_writable hfront' hpiece hdir] at hwritable
        cases hwritable
      · rw [append_assoc, components_join saveDir hfront (ordinary_suffix hpiece i), Stays, hname]
        constructor
        · rintro ⟨name', heq⟩
          exact .inr (append_inj_left' heq rfl)
        · rintro (hsome | heq)
          · cases hsome
          · exact ⟨_, congrArg (· ++ _) heq⟩
  · refine Bool.eq_false_iff.mpr fun hexists => ?_
    rw [hcreate fs fs' saveDir path hfs' hexists] at hfree
    cases hfree hkeep

end Saved

/-- The root and the directory `/save`. -/
def sampleFiles : FileSystem where
  directories := [[], [[0x73, 0x61, 0x76, 0x65]]]
  files := []
  current := []
  root := by decide
  parent := by decide

/-- The path `/save`. -/
def sampleDir : Bytes := [0x2f, 0x73, 0x61, 0x76, 0x65]

/-- Metadata with a name. -/
def sampleMetadata (name : Bytes) : Option Bytes :=
  some ([0x81, 0xa4, 0x6e, 0x61, 0x6d, 0x65] ++ writeBin name)

theorem saved_inside_sample : ∃ path,
    savePayload (fun fs _ => some fs) sampleFiles sampleDir
      (receivedName (sampleMetadata [0x61]) (Octets.replicate 32 0)) false = .ok path ∧
    ∃ name, components path = components sampleDir ++ [.normal name] := by
  have hsave : savePayload (fun fs _ => some fs) sampleFiles sampleDir
      (receivedName (sampleMetadata [0x61]) (Octets.replicate 32 0)) false =
        .ok (sampleDir ++ [0x2f, 0x61]) := by decide +kernel
  refine ⟨_, hsave, (saved_inside_iff ?_ hsave).1.mpr (.inl (by decide +kernel))⟩
  rintro fs _ _ path ⟨⟩ hexists
  exact hexists

/-- A file with the name `../` is written to `/save/../.1`. -/
theorem saved_outside :
    savePayload (fun fs _ => some fs) sampleFiles sampleDir
      (receivedName (sampleMetadata [0x2e, 0x2e, 0x2f]) (Octets.replicate 32 0)) false =
        .ok (sampleDir ++ [0x2f, 0x2e, 0x2e, 0x2f, 0x2e, 0x31]) ∧
    components (sampleDir ++ [0x2f, 0x2e, 0x2e, 0x2f, 0x2e, 0x31]) =
      components sampleDir ++ [.parentDir, .normal [0x2e, 0x31]] := by
  decide +kernel

end Reticulum.Runtime
