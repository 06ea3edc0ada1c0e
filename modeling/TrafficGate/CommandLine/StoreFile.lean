import TrafficGate.CommandLine.FileTree
import TrafficGate.CommandLine.StoreName
/-!
  # Files of stores

  Opening the file of a store in a tree of files, and closing it. Other files may stand beside it: a
  journal, from which a change that broke off is undone; the changes that are written ahead; and an
  index of these.

  1. the files beside a store;
  2. `openStore` -- a new store, or the one that is there;
  3. `closeStore` -- what a run leaves. When a connection that writes is the last to close, the
     changes written ahead go into the file itself.

  Main facts: **`openStore_frozen`** (a file taken for one that never changes stays as it is) and
  **`tables_closeStore`** (what a run leaves is in the file).
-/

namespace TrafficGate.CommandLine

open Store

namespace FileTree

/-! ## 1. Files beside a store -/

/-- The path of a file that goes with the one at `p`. -/
def besides (p : Path) (ending : String) : Path :=
  p.dropLast ++ [p.getLast?.getD [] ++ ending.toList]

/-- The journal of a store. -/
def journalOf (p : Path) : Path := besides p "-journal"

/-- The changes of a store that are written ahead. -/
def changesOf (p : Path) : Path := besides p "-wal"

/-- The index of the changes. -/
def indexOf (p : Path) : Path := besides p "-shm"

/-- Whether a change is undone from what stands at the path of a journal. An empty file tells of
    none, nor does one that begins with a zero. -/
def isHot : Option Entry → Bool
  | some (.file (b :: _)) => b != 0
  | some (.store _) | some .companion => true
  | _ => false

/-- Whether something stands at a path. An empty file counts as nothing. -/
def isTaken (p : Path) (t : FileTree) : Bool :=
  match t.find? p with
  | none | some (.file []) => false
  | some _ => true

/-- Whether a directory stands in the place of the index that a store needs. -/
def lacksIndex (p : Path) (u : Usage) (t : FileTree) : Bool :=
  u.ahead && u.indexed && t.isDirectory (indexOf p)

/-- The tree with the file of a store, and the files for changes written ahead beside it. -/
def putStore (p : Path) (u : Usage) (f : StoreFile) (changes : Entry) (t : FileTree) : FileTree :=
  let t := t.put p (.store f)
  if f.ahead then
    let t := t.put (changesOf p) changes
    if u.indexed then t.put (indexOf p) .companion else t
  else t

/-! ## 2. Opening -/

/-- Makes a store. A journal and changes that are there without it are dropped. -/
def createStore (p : Path) (u : Usage) (t : FileTree) : Except Fault (Database × FileTree) :=
  if u.frozen || t.isDirectory (journalOf p) || t.isDirectory (changesOf p) || t.lacksIndex p u then
    .error .refused
  else
    let f : StoreFile :=
      { tables := Tables.fresh, settled := if u.ahead then none else some Tables.fresh,
        ahead := u.ahead }
    (Database.openFile (some f.tables)).map fun d =>
      (d, (if t.isTaken (changesOf p) then t.erase (changesOf p) else t).erase (journalOf p)
        |>.putStore p u f .companion)

/-- Opens a store that is there. Changes that are written ahead can be used in that way only. A change
    that is undone, and changing over to writing ahead, both need the journal and a store that may be
    written. -/
def reopenStore (p : Path) (u : Usage) (f : StoreFile) (t : FileTree) :
    Except Fault (Database × FileTree) :=
  let changes := (t.find? (changesOf p)).getD (.file [])
  let unusable :=
    if u.ahead then changes = .directory ∨ t.lacksIndex p u
    else f.ahead ∨ t.isTaken (changesOf p)
  let rewritten := isHot (t.find? (journalOf p)) || u.ahead && !f.ahead
  if u.frozen then (Database.openToRead f.settled).map fun d => (d, t)
  else if unusable then .error .refused
  else if u.access = .read then
    if rewritten then .error .refused
    else (Database.openToRead (some f.tables)).map fun d => (d, t.putStore p u f changes)
  else
    let t := if rewritten then t.erase (journalOf p) else t
    (Database.openFile (some f.tables)).map fun d =>
      (d, t.putStore p u { f with tables := d.tables, ahead := u.ahead } changes)

/-- Opens the store at a path. An empty file is a new store; no other file is one. -/
def openStore (p : Path) (u : Usage) (t : FileTree) : Except Fault (Database × FileTree) :=
  if p.any isLongName || !t.isDirectory p.dropLast then .error .refused
  else
    match t.find? p with
    | none => if u.access = .create then t.createStore p u else .error .refused
    | some (.file []) => if u.access = .read then .error .refused else t.createStore p u
    | some (.store f) => t.reopenStore p u f
    | some _ => .error .refused

/-! ## 3. Closing -/

/-- Whether a connection that writes is the last to close: both are one, or it is the only one. -/
def closesLast (u : Usage) : Bool := u.shared || !u.readable

/-- Closes the store at a path with the tables that a run leaves in it. -/
def closeStore (p : Path) (u : Usage) (tables : Tables) (t : FileTree) : FileTree :=
  match t.find? p with
  | some (.store f) =>
    if u.frozen || u.access = .read then t
    else if !f.ahead then
      let t := if f.tables = tables then t else t.erase (journalOf p)
      t.putStore p u { f with tables, settled := some tables } .companion
    else if closesLast u then
      let t := (t.put p (.store { f with tables, settled := some tables })).erase (changesOf p)
      if u.indexed then t.erase (indexOf p) else t
    else if f.tables = tables then t
    else t.putStore p u { f with tables } .companion
  | _ => t

theorem besides_ne {p : Path} {ending : String} (h : ending.toList ≠ []) : p ≠ besides p ending := by
  intro he
  have hl := congrArg List.getLast? he
  simp only [besides, List.getLast?_append, List.getLast?_singleton, Option.some_or] at hl
  cases hp : p.getLast? with
  | none => simp [hp] at hl
  | some name => exact h (by simpa [hp] using hl)

theorem find?_putStore {p : Path} (h : p ≠ []) (u : Usage) (f : StoreFile) (changes : Entry)
    (t : FileTree) : (t.putStore p u f changes).find? p = some (.store f) := by
  have hc : p ≠ changesOf p := besides_ne (by decide)
  have hi : p ≠ indexOf p := besides_ne (by decide)
  unfold putStore
  split
  · split <;> simp [find?_put_other hc, find?_put_other hi, find?_put_self h]
  · exact find?_put_self h _ t

/-- **What a run leaves is in the file**, unless that is only read. -/
theorem tables_closeStore {p : Path} {u : Usage} {t : FileTree} {f : StoreFile} (hp : p ≠ [])
    (hf : t.find? p = some (.store f)) (hu : u.frozen = false) (ha : u.access ≠ .read)
    (tables : Tables) :
    ∃ f', (t.closeStore p u tables).find? p = some (.store f') ∧ f'.tables = tables := by
  have hc : p ≠ changesOf p := besides_ne (by decide)
  have hi : p ≠ indexOf p := besides_ne (by decide)
  simp only [closeStore, hf, hu, ha, Bool.false_or, decide_false, Bool.false_eq_true, if_false]
  split
  · exact ⟨_, find?_putStore hp _ _ _ _, rfl⟩
  · split
    · split
      · exact ⟨_, by rw [find?_erase_other hi, find?_erase_other hc, find?_put_self hp], rfl⟩
      · exact ⟨_, by rw [find?_erase_other hc, find?_put_self hp], rfl⟩
    · split
      · next he => exact ⟨f, hf, he⟩
      · exact ⟨_, find?_putStore hp _ _ _ _, rfl⟩

/-- **A file taken for one that never changes stays as it is.** -/
theorem openStore_frozen {p : Path} {u : Usage} {t t' : FileTree} {d : Database}
    (h : u.frozen = true) (ho : t.openStore p u = .ok (d, t')) :
    t' = t ∧ ∀ tables, t'.closeStore p u tables = t := by
  have ht : t' = t := by
    unfold openStore at ho
    split at ho
    · cases ho
    · split at ho
      · split at ho
        · simp [createStore, h] at ho
        · cases ho
      · split at ho
        · cases ho
        · simp [createStore, h] at ho
      · simp only [reopenStore, h, if_true] at ho
        revert ho
        cases Database.openToRead _ with
        | error => intro ho; cases ho
        | ok => intro ho; cases ho; rfl
      · cases ho
  subst ht
  refine ⟨rfl, fun tables => ?_⟩
  unfold closeStore
  split
  · simp [h]
  · rfl

end FileTree

end TrafficGate.CommandLine
