import FTKV.Storage.SavedSnapshots

/-!
# Saves that are cut short

A disk on which every call of `FilePersistence::save` may succeed, fail after a
part of its effect, or be the last thing that happens before the process is killed.
Writes reach the file in order, and a rename takes place as a whole or not at all.

After a crash no call has an effect any more.  What the program would still
return is then of no interest, but the files are those of the moment of the crash:
the operating system goes on and keeps what the calls have written.  A machine that
loses power may keep less, since a save never asks for its bytes to be written back.
-/

namespace FTKV
namespace Storage

open Foundation
open Foundation.Effect

/-!
# A disk on which any call may be the last
-/

/-- What becomes of a call; a part of a write is a number of its bytes. -/
inductive Fate where
  | succeeds
  | fails (part : Nat)
  | crashes (part : Nat)
deriving DecidableEq, Repr

structure CrashDisk where
  files : Path -> Option Bytes := fun _ => none
  /-- What has been written to the stream that is open on a path. -/
  streams : Path -> Bytes := fun _ => []
  script : List Fate := []
  crashed : Bool := false
  /-- A rename has taken place. -/
  renamed : Bool := false
  /-- A removal has reported a failure. -/
  removalFailed : Bool := false

namespace CrashDisk

def restart (d : CrashDisk) : CrashDisk :=
  { files := d.files }

def apply (d : CrashDisk) (path : Path) : FileCall -> CrashDisk
  | .openOutput => { d with
      files := Function.update d.files path (some [])
      streams := Function.update d.streams path [] }
  | .write data => { d with
      files := Function.update d.files path (some (d.streams path ++ data))
      streams := Function.update d.streams path (d.streams path ++ data) }
  | .flush => d
  | .close => { d with
      files := Function.update d.files path (some (d.streams path)) }
  | .release => d
  | .remove => { d with files := Function.update d.files path none }

def applyPart (d : CrashDisk) (path : Path) (part : Nat) : FileCall -> CrashDisk
  | .openOutput =>
      if part = 0 then d else { d with
        files := Function.update d.files path (some []) }
  | .write data => { d with
      files := Function.update d.files path
        (some (d.streams path ++ data.take part)) }
  | .flush => d
  | .close => d
  | .release => d
  | .remove =>
      if part = 0 then { d with removalFailed := true } else { d with
        files := Function.update d.files path none
        removalFailed := true }

def move (d : CrashDisk) (path target : Path) : CrashDisk :=
  { d with
    files := Function.update (Function.update d.files path none) target
      (d.files path)
    renamed := true }

def attempt (d : CrashDisk) (whole : CrashDisk) (part : Nat -> CrashDisk) :
    Bool × CrashDisk :=
  if d.crashed then
    (false, d)
  else
    match d.script with
    | [] => (true, whole)
    | .succeeds :: rest => (true, { whole with script := rest })
    | .fails size :: rest => (false, { part size with script := rest })
    | .crashes size :: rest =>
        (false, { part size with script := rest, crashed := true })

/-- A rename that is under way when the process is killed has taken place or not. -/
def rename (d : CrashDisk) (path target : Path) : Bool × CrashDisk :=
  if d.crashed then
    (false, d)
  else
    match d.script with
    | [] => (true, d.move path target)
    | .succeeds :: rest => (true, { d.move path target with script := rest })
    | .fails _ :: rest => (false, { d with script := rest })
    | .crashes 0 :: rest => (false, { d with script := rest, crashed := true })
    | .crashes (_ + 1) :: rest =>
        (true, { d.move path target with script := rest, crashed := true })

instance : FileSystem CrashDisk where
  contents d := d.files
  written d := d.streams
  inspect path d := (some (d.files path).isSome, d)
  openInput path d := (d.files path, d)
  createDirectories _ d := d.attempt d fun _ => d
  call call path d := d.attempt (d.apply path call) fun part =>
    d.applyPart path part call
  rename path target d := d.rename path target

theorem attempt_cases {d whole : CrashDisk} {part : Nat -> CrashDisk}
    {motive : Bool × CrashDisk -> Prop}
    (hdead : d.crashed = true -> motive (false, d))
    (hmade : forall rest, motive (true, { whole with script := rest }))
    (hcut : forall size rest crashed,
      motive (false, { part size with script := rest, crashed := crashed })) :
    motive (d.attempt whole part) := by
  unfold attempt
  split
  · rename_i hcrashed
    exact hdead hcrashed
  · cases d.script with
    | nil => exact hmade whole.script
    | cons fate rest =>
        cases fate with
        | succeeds => exact hmade rest
        | fails size => exact hcut size rest (part size).crashed
        | crashes size => exact hcut size rest true

theorem rename_cases (d : CrashDisk) (path target : Path) :
    (exists rest crashed, d.rename path target =
      (true, { d.move path target with script := rest, crashed := crashed })) ∨
    exists rest crashed, d.rename path target =
      (false, { d with script := rest, crashed := crashed }) := by
  unfold rename
  split
  · exact Or.inr ⟨d.script, d.crashed, rfl⟩
  · cases d.script with
    | nil => exact Or.inl ⟨_, (d.move path target).crashed, rfl⟩
    | cons fate rest =>
        cases fate with
        | succeeds => exact Or.inl ⟨rest, (d.move path target).crashed, rfl⟩
        | fails size => exact Or.inr ⟨rest, d.crashed, rfl⟩
        | crashes size =>
            cases size with
            | zero => exact Or.inr ⟨rest, true, rfl⟩
            | succ size => exact Or.inl ⟨rest, true, rfl⟩

theorem files_apply_of_ne (d : CrashDisk) {path other : Path} (call : FileCall)
    (hne : other ≠ path) : (d.apply path call).files other = d.files other := by
  cases call with
  | openOutput | write | close | remove => exact Function.update_of_ne hne ..
  | flush | release => rfl

theorem files_applyPart_of_ne (d : CrashDisk) {path other : Path} (part : Nat)
    (call : FileCall) (hne : other ≠ path) :
    (d.applyPart path part call).files other = d.files other := by
  cases call with
  | write => exact Function.update_of_ne hne ..
  | flush | close | release => rfl
  | openOutput | remove =>
      simp only [applyPart]
      split
      · rfl
      · exact Function.update_of_ne hne ..

theorem eq_of_attempt_eq_true {d whole d' : CrashDisk} {part : Nat -> CrashDisk}
    (h : d.attempt whole part = (true, d')) :
    exists rest, d' = { whole with script := rest } := by
  have hcases : (d.attempt whole part).1 = true ->
      exists rest, (d.attempt whole part).2 = { whole with script := rest } :=
    attempt_cases (motive := fun r => r.1 = true ->
      exists rest, r.2 = { whole with script := rest })
      nofun (fun rest _ => ⟨rest, rfl⟩) nofun
  rw [h] at hcases
  exact hcases rfl

instance : LawfulFileSystem CrashDisk where
  contents_inspect _ _ := rfl
  contents_openInput _ _ := rfl
  contents_createDirectories path d := by
    exact attempt_cases (motive := fun r => r.2.files = d.files)
      (fun _ => rfl) (fun _ => rfl) (fun _ _ _ => rfl)
  contents_call_of_ne call path other d hne := by
    exact attempt_cases (motive := fun r => r.2.files other = d.files other)
      (fun _ => rfl) (fun _ => files_apply_of_ne d call hne)
      (fun size _ _ => files_applyPart_of_ne d size call hne)
  written_openOutput path d d' h := by
    rcases eq_of_attempt_eq_true h with ⟨rest, rfl⟩
    exact Function.update_self ..
  written_write path data d d' h := by
    rcases eq_of_attempt_eq_true h with ⟨rest, rfl⟩
    exact Function.update_self ..
  written_flush path d d' h := by
    rcases eq_of_attempt_eq_true h with ⟨rest, rfl⟩
    rfl
  contents_close path d d' h := by
    rcases eq_of_attempt_eq_true h with ⟨rest, rfl⟩
    exact Function.update_self ..
  contents_rename path target d d' h := by
    change d.rename path target = _ at h
    rcases rename_cases d path target with ⟨rest, crashed, heq⟩ | ⟨rest, crashed, heq⟩
    · rw [heq] at h
      cases h
      exact Function.update_self ..
    · rw [heq] at h
      cases h
  contents_rename_failed path target d d' h := by
    change d.rename path target = _ at h
    rcases rename_cases d path target with ⟨rest, crashed, heq⟩ | ⟨rest, crashed, heq⟩
    · rw [heq] at h
      cases h
    · rw [heq] at h
      cases h
      rfl

instance : ReliableReads CrashDisk where
  inspect_eq _ _ := rfl
  openInput_eq _ _ := rfl

theorem renamed_apply (d : CrashDisk) (path : Path) (call : FileCall) :
    (d.apply path call).renamed = d.renamed := by
  cases call <;> rfl

theorem renamed_applyPart (d : CrashDisk) (path : Path) (part : Nat)
    (call : FileCall) : (d.applyPart path part call).renamed = d.renamed := by
  cases call with
  | write | flush | close | release => rfl
  | openOutput | remove =>
      simp only [applyPart]
      split <;> rfl

theorem renamed_call (call : FileCall) (path : Path) (d : CrashDisk) :
    (FileSystem.call call path d).2.renamed = d.renamed :=
  attempt_cases (motive := fun r => r.2.renamed = d.renamed) (fun _ => rfl)
    (fun _ => renamed_apply d path call)
    (fun size _ _ => renamed_applyPart d path size call)

theorem createDirectories_frame (path : Path) (d : CrashDisk) :
    (FileSystem.createDirectories path d).2.files = d.files ∧
      (FileSystem.createDirectories path d).2.renamed = d.renamed :=
  attempt_cases (motive := fun r => r.2.files = d.files ∧ r.2.renamed = d.renamed)
    (fun _ => ⟨rfl, rfl⟩) (fun _ => ⟨rfl, rfl⟩) (fun _ _ _ => ⟨rfl, rfl⟩)

end CrashDisk

/-!
# The rename decides
-/

namespace FilePersistence

variable (file : FilePersistence)

theorem spares_renamed : file.Spares CrashDisk.renamed :=
  ⟨fun path d => (CrashDisk.createDirectories_frame path d).right,
    fun call d => CrashDisk.renamed_call call _ d⟩

variable [IterationOrder CrashDisk]

def Decided (r : Except Fault Unit) (d : CrashDisk) : Prop :=
  d.renamed = true <-> r = .ok ()

omit [IterationOrder CrashDisk] in
theorem ensures_replaceFile_decided {d : CrashDisk} (hbefore : d.renamed = false) :
    Ensures file.replaceFile d Decided := by
  unfold replaceFile
  rw [ensures_bind, ensures_modifyGet, continues_ok]
  show Ensures (if (d.rename _ _).1 then _ else _) (d.rename _ _).2 Decided
  rcases d.rename_cases file.temporaryPath file.filePath with
    ⟨rest, crashed, hrename⟩ | ⟨rest, crashed, hrename⟩
  · rw [hrename]
    exact iff_of_true rfl rfl
  · rw [hrename]
    refine iff_of_false ?_ nofun
    show ¬ d.renamed = true
    rw [hbefore]
    nofun

theorem ensures_save_decided (entries : EntryMap) {d : CrashDisk}
    (hbefore : d.renamed = false) : Ensures (file.save entries) d Decided := by
  have hthrown : forall (fault : Fault) (d' : CrashDisk), d'.renamed = d.renamed ->
      Decided (.error fault) d' := by
    intro fault d' hsame
    refine iff_of_false ?_ nofun
    rw [hsame, hbefore]
    nofun
  unfold save
  split
  · exact hthrown _ d rfl
  · apply ensures_bind_of (file.spares_renamed.preserves_createParent d)
    · intro _ d1 hd1
      have hblock : Ensures (file.writeTemporary entries >>= fun _ =>
          file.replaceFile) d1 Decided := by
        apply ensures_bind_of (file.spares_renamed.preserves_writeTemporary entries d1)
        · intro _ d2 hd2
          apply ensures_replaceFile_decided
          rw [hd2, hd1, hbefore]
        · intro fault d2 hd2
          exact hthrown fault d2 (hd2.trans hd1)
      apply ensures_tryCatch hblock
      · intro _ d2 hd2
        exact hd2
      · intro fault d2 hd2
        refine iff_of_false ?_ nofun
        rw [file.spares_renamed.preserves_cleanUp fault d2]
        intro hrenamed
        cases hd2.mp hrenamed
    · intro fault d1 hd1
      exact hthrown fault d1 hd1

/-!
# The temporary file
-/

omit [IterationOrder CrashDisk] in
theorem ensures_cleanUp_removed (fault : Fault) (d : CrashDisk) :
    Ensures (file.cleanUp fault) d (fun _ d' => d'.crashed = false ->
      d'.removalFailed = false -> d'.files file.temporaryPath = none) := by
  unfold cleanUp
  rw [ensures_bind, ensures_modifyGet, continues_ok, ensures_bind,
    ensures_modifyGet, continues_ok, ensures_throw]
  apply CrashDisk.attempt_cases (motive := fun r => r.2.crashed = false ->
    r.2.removalFailed = false -> r.2.files file.temporaryPath = none)
  · intro hcrashed halive
    rw [hcrashed] at halive
    cases halive
  · intro rest _ _
    exact Function.update_self ..
  · intro size rest crashed _ hfailed
    simp only [CrashDisk.applyPart] at hfailed
    split at hfailed <;> cases hfailed

/-- The save gets as far as the temporary file. -/
def Prepared (entries : EntryMap) (d : CrashDisk) : Prop :=
  entries.size <= maximumEntries.toNat ∧ (parentPath file.filePath ≠ "" ->
    (FileSystem.createDirectories (parentPath file.filePath) d).1 = true)

theorem ensures_save_removed {entries : EntryMap} {d : CrashDisk}
    (hprepared : file.Prepared entries d) :
    Ensures (file.save entries) d (fun r d' => r ≠ .ok () -> d'.crashed = false ->
      d'.removalFailed = false -> d'.files file.temporaryPath = none) := by
  have hparent : Ensures file.createParent d (fun r _ => r = .ok ()) := by
    unfold createParent
    split
    · rename_i hdirectory
      rw [ensures_bind, ensures_modifyGet, continues_ok, hprepared.right hdirectory]
      rfl
    · rfl
  unfold save
  rw [if_neg (not_lt.mpr hprepared.left)]
  apply ensures_bind_of hparent
  · intro _ d1 _
    have hblock : Ensures (file.writeTemporary entries >>= fun _ =>
        file.replaceFile) d1 (fun _ _ => True) := trivial
    apply ensures_tryCatch hblock
    · intro _ d2 _ hthrows
      exact absurd rfl hthrows
    · intro fault d2 _
      refine ensures_mono (file.ensures_cleanUp_removed fault d2) ?_
      intro r d3 hremoved _
      exact hremoved
  · intro fault d1 herror
    cases herror

theorem ensures_save_refused {entries : EntryMap} {d : CrashDisk}
    (hrefused : ¬ file.Prepared entries d) :
    Ensures (file.save entries) d (fun r d' => r ≠ .ok () ∧ d'.files = d.files) := by
  unfold save
  split
  · exact ⟨nofun, rfl⟩
  · rename_i hsize
    by_cases hdirectory : parentPath file.filePath = ""
    · exact absurd ⟨not_lt.mp hsize, absurd hdirectory⟩ hrefused
    · have hfailed : (FileSystem.createDirectories (parentPath file.filePath)
          d).1 = false := by
        rw [← Bool.not_eq_true]
        intro hcreated
        exact hrefused ⟨not_lt.mp hsize, fun _ => hcreated⟩
      unfold createParent
      rw [if_pos hdirectory, ensures_bind, ensures_bind, ensures_modifyGet,
        continues_ok, hfailed]
      exact ⟨nofun, (CrashDisk.createDirectories_frame _ d).left⟩

/-!
# Old or new
-/

omit [IterationOrder CrashDisk] in
theorem load_restart (d : CrashDisk) :
    (outcome file.load d.restart).1 = file.loaded (d.files file.filePath) :=
  file.load_eq d.restart

/--
A save replaces the snapshot as a whole or not at all, wherever it fails or is cut
short.  After a restart the new map is loaded if the rename has taken place, and
otherwise what would have been loaded before.  A save that returns has renamed,
and one that throws has not.  A save that throws once it has got as far as the
temporary file leaves none behind, unless its removal fails, and one that is
refused before that changes no file.
-/
theorem save_crash_atomic (entries : EntryMap) (d : CrashDisk)
    (hrenamed : d.renamed = false) (r : Except Fault Unit) (d' : CrashDisk)
    (hsave : outcome (file.save entries) d = (r, d')) :
    (d'.renamed = true -> (outcome file.load d'.restart).1 = .ok entries) ∧
    (d'.renamed = false ->
      (outcome file.load d'.restart).1 = (outcome file.load d.restart).1) ∧
    (d'.crashed = false -> (r = .ok () <-> d'.renamed = true)) ∧
    (d'.crashed = false -> r ≠ .ok () -> file.Prepared entries d ->
      d'.removalFailed = false -> d'.files file.temporaryPath = none) ∧
    (¬ file.Prepared entries d -> r ≠ .ok () ∧ d'.files = d.files) := by
  have hsaves := ensures_save entries (rfl : FileSystem.contents d file.filePath = _)
  have hdecided := file.ensures_save_decided entries hrenamed
  unfold Ensures at hsaves hdecided
  rw [hsave] at hsaves hdecided
  refine ⟨?_, ?_, fun _ => hdecided.symm, ?_, ?_⟩
  · intro hreplaced
    rw [hdecided.mp hreplaced] at hsaves
    rcases hsaves with ⟨hstorable, moment, hcontents⟩
    rw [load_restart]
    change d'.files file.filePath = _ at hcontents
    rw [hcontents, loaded_some_eq_ok_iff]
    exact ⟨hstorable, _, IterationOrder.enumerates entries moment, rfl⟩
  · intro hkept
    rw [load_restart, load_restart]
    cases r with
    | ok _ =>
        rw [hdecided.mpr rfl] at hkept
        cases hkept
    | error fault =>
        have hcontents : d'.files file.filePath = d.files file.filePath := hsaves.right
        rw [hcontents]
  · intro halive hthrows hprepared hremoved
    have hspec := file.ensures_save_removed hprepared
    unfold Ensures at hspec
    rw [hsave] at hspec
    exact hspec hthrows halive hremoved
  · intro hrefused
    have hspec := file.ensures_save_refused hrefused
    unfold Ensures at hspec
    rw [hsave] at hspec
    exact hspec

end FilePersistence

instance : IterationOrder CrashDisk :=
  sortedOrder CrashDisk

namespace FilePersistence

def snapshotFile : FilePersistence :=
  ⟨"data/kv.snapshot", by decide⟩

/-- A snapshot with one entry, and the temporary file of a save that was cut short. -/
def leftoverDisk (script : List Fate) : CrashDisk where
  files path :=
    if path = "data/kv.snapshot" then some (snapshotBytes [⟨[107], [118]⟩])
    else if path = "data/kv.snapshot.tmp" then some [1]
    else none
  script := script

def replacedDisk (script : List Fate) : CrashDisk :=
  (outcome (snapshotFile.save (Finmap.singleton [107] [119])) (leftoverDisk script)).2

/--
A process that is killed after three bytes of the magic number leaves the old value,
and one that is killed within the rename may leave the new one.
-/
theorem save_crash_atomic_cut :
    ((replacedDisk [.succeeds, .succeeds, .crashes 3]).crashed = true ∧
      (replacedDisk [.succeeds, .succeeds, .crashes 3]).files
        snapshotFile.temporaryPath = some (fileMagic.take 3) ∧
      (outcome snapshotFile.load
        (replacedDisk [.succeeds, .succeeds, .crashes 3]).restart).1 =
          .ok (Finmap.singleton [107] [118])) ∧
    (replacedDisk (List.replicate 10 .succeeds ++ [.crashes 1])).crashed = true ∧
      (outcome snapshotFile.load
        (replacedDisk (List.replicate 10 .succeeds ++ [.crashes 1])).restart).1 =
          .ok (Finmap.singleton [107] [119]) := by
  have hold : (outcome snapshotFile.load (leftoverDisk []).restart).1 =
      .ok (Finmap.singleton [107] [118]) := by
    decide +kernel
  have hatomic (script : List Fate) := snapshotFile.save_crash_atomic
    (Finmap.singleton [107] [119]) (leftoverDisk script) rfl _ (replacedDisk script) rfl
  refine ⟨⟨?_, ?_, ?_⟩, ?_, ?_⟩
  · decide +kernel
  · decide +kernel
  · rw [(hatomic _).right.left (by decide +kernel)]
    exact hold
  · decide +kernel
  · exact (hatomic _).left (by decide +kernel)

/--
The directory cannot be created.  The save throws, no removal has failed, and the
temporary file of the earlier save remains; to remove it would have succeeded.
-/
theorem leftover_remains :
    exists fault d', outcome (snapshotFile.save ∅) (leftoverDisk [.fails 0]) =
        (.error fault, d') ∧
      d'.crashed = false ∧ d'.removalFailed = false ∧
      d'.files snapshotFile.temporaryPath = some [1] ∧
      (FileSystem.call .remove snapshotFile.temporaryPath d').1 = true := by
  exact ⟨_, _, rfl, rfl, rfl, rfl, rfl⟩

end FilePersistence

end Storage
end FTKV
