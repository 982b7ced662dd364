import Cipher.Content
import Cipher.FileSystem
import Cipher.Transition

/-!
# Storing a chunk, step by step

`PutChunk` writes a chunk to a temporary file and renames it. Elsewhere that
is one update of the store (`Storage.putChunk`); here it is taken apart into
what it does with the file system, and any number of calls go on at the same
time.

The name of the temporary file has the chunk's path and the number of the
process in it, so two calls for one chunk have the same: the second truncates
the file that the first is about to rename, and finds no file where it wants
to rename its own. As long as a call for a chunk begins only when no other
for it is in progress, every call takes effect as one update of the store, at
the renaming (`putChunk_alone`).

A write is one step here; one that fails may have written a part. Nothing
removes a directory, so that there is one is all that `MkdirAll` matters for.
-/

namespace Cipher.Content

open Bytes Binary Go FileSystem Transition Function List Option

/-! ## One call -/

/-- `tmpPath`: the path with the number of the process. -/
def tmpPath (pid : Nat) (path : Path) : Path :=
  path.dropLast ++ [path.getLastD [] ++ (ascii "." ++ Geth.decimal pid ++ ascii ".tmp")]

inductive PutError where
  | shardDir | create | header | data | fsync | rename | notExist
deriving DecidableEq

/-- Where a call of `PutChunk` is. After a failure it closes and removes the
temporary file before it returns. -/
inductive Call where
  | called
  | creating
  | header (f : OpenFile)
  | data (f : OpenFile)
  | syncing (f : OpenFile)
  | closing (f : OpenFile)
  | publishing
  | failed (f : OpenFile) (e : PutError)
  | removing (e : PutError)
  | returned (e : Option PutError)
deriving DecidableEq

/-- Whether the file system does what it is asked for; `written` is how much
of a write came through before it failed. -/
inductive Outcome where
  | done
  | failed (written : Nat)
deriving DecidableEq

/-- The next step of `PutChunk`. Errors of `Close` and `Remove` are not
looked at. -/
def Call.next (pid : Nat) (chunk : Chunk) (d : Disk Path) :
    Call → Outcome → Option (Disk Path × Call)
  | .called, .done => some (d, .creating)
  | .called, .failed _ => some (d, .returned (some .shardDir))
  | .creating, .done =>
    let created := d.create (tmpPath pid (pathForChunk chunk.header.id))
    some (created.1, .header created.2)
  | .creating, .failed _ => some (d, .returned (some .create))
  | .header f, .done =>
    let written := d.write f (headerCodec.encode chunk.header)
    some (written.1, .data written.2)
  | .header f, .failed n =>
    let written := d.write f ((headerCodec.encode chunk.header).take n)
    some (written.1, .failed written.2 .header)
  | .data f, .done =>
    let written := d.write f chunk.data
    some (written.1, .syncing written.2)
  | .data f, .failed n =>
    let written := d.write f (chunk.data.take n)
    some (written.1, .failed written.2 .data)
  | .syncing f, .done => some (d, .closing f)
  | .syncing f, .failed _ => some (d, .failed f .fsync)
  | .closing _, _ => some (d, .publishing)
  | .publishing, .done =>
    let path := pathForChunk chunk.header.id
    match d.rename (tmpPath pid path) path with
    | none => some (d, .returned (some .notExist))
    | some d' => some (d', .returned none)
  | .publishing, .failed _ => some (d, .returned (some .rename))
  | .failed _ e, _ => some (d, .removing e)
  | .removing e, .done =>
    some (d.remove (tmpPath pid (pathForChunk chunk.header.id)), .returned (some e))
  | .removing e, .failed _ => some (d, .returned (some e))
  | .returned _, _ => none

/-! ## Any number of calls -/

/-- The calls of the process by number; `chunks` has the chunk of each. -/
structure Puts where
  disk : Disk Path
  calls : Nat → Call

def Puts.init (d : Disk Path) : Puts := ⟨d, fun _ => .called⟩

structure PutStep where
  call : Nat
  outcome : Outcome

def Puts.step (pid : Nat) (chunks : Nat → Chunk) (a : PutStep) (s : Puts) : Option Puts :=
  ((s.calls a.call).next pid (chunks a.call) s.disk a.outcome).map fun r =>
    ⟨r.1, update s.calls a.call r.2⟩

def Call.InProgress : Call → Prop
  | .called | .returned _ => False
  | _ => True

/-- A call begins only when no other for the same chunk is in progress. -/
def Alone (chunks : Nat → Chunk) (a : PutStep) (s : Puts) : Prop :=
  s.calls a.call = .called → ∀ other, (chunks other).header.id = (chunks a.call).header.id →
    ¬ (s.calls other).InProgress

/-! ## Paths -/

lemma tmpPath_pathForChunk (pid : Nat) (id : ChunkID) :
    tmpPath pid (pathForChunk id) = [(hexEncode id.val).take 2, ((hexEncode id.val).drop 2).take 2,
      hexEncode id.val ++ (ascii "." ++ Geth.decimal pid ++ ascii ".tmp")] := by
  rw [pathForChunk_eq]
  rfl

lemma tmpPath_injective {pid : Nat} {id id' : ChunkID}
    (h : tmpPath pid (pathForChunk id) = tmpPath pid (pathForChunk id')) : id = id' := by
  rw [tmpPath_pathForChunk, tmpPath_pathForChunk] at h
  simp only [List.cons.injEq, and_true] at h
  have hname : hexEncode id.val = hexEncode id'.val := append_cancel_right h.2.2
  refine pathForChunk_injective ?_
  rw [pathForChunk_eq, pathForChunk_eq, hname]

lemma tmpPath_ne_pathForChunk (pid : Nat) (id id' : ChunkID) :
    tmpPath pid (pathForChunk id) ≠ pathForChunk id' := by
  intro h
  rw [tmpPath_pathForChunk, pathForChunk_eq] at h
  simp only [List.cons.injEq, and_true] at h
  -- the name of the temporary file is longer
  have hlen := congrArg List.length h.2.2
  have hdot : (ascii ".").length = 1 := by decide
  simp only [length_append, Geth.length_hexEncode, id.property, id'.property, hdot] at hlen
  omega

/-! ## What a step of a call does -/

/-- What a call has done so far, up to the renaming. -/
def Call.Ok (pid : Nat) (chunk : Chunk) (d : Disk Path) : Call → Prop
  | .header f => d.Holds (tmpPath pid (pathForChunk chunk.header.id)) f []
  | .data f =>
    d.Holds (tmpPath pid (pathForChunk chunk.header.id)) f (headerCodec.encode chunk.header)
  | .syncing f | .closing f => d.Holds (tmpPath pid (pathForChunk chunk.header.id)) f chunk.bytes
  | .publishing => d.read (tmpPath pid (pathForChunk chunk.header.id)) = some chunk.bytes
  | .failed _ e | .removing e => e ≠ .notExist
  | .returned e => e ≠ some .notExist
  | .called | .creating => True

variable {chunk : Chunk} {d d' : Disk Path} {call : Call}

lemma Call.Ok.same (h : call.Ok pid chunk d)
    (hsame : d.Same d' (tmpPath pid (pathForChunk chunk.header.id))) : call.Ok pid chunk d' := by
  cases call with
  | header f | data f | syncing f | closing f => exact Disk.Holds.same h hsame
  | publishing => exact hsame.read.trans h
  | called | creating | failed | removing | returned => exact h

/-- A call that is not in progress has nothing to do with the disk. -/
lemma Call.Ok.idle (h : call.Ok pid chunk d) (hidle : ¬ call.InProgress)
    (d' : Disk Path) : call.Ok pid chunk d' := by
  cases call with
  | called | returned => exact h
  | _ => exact absurd trivial hidle

/-- A step leaves all names alone but that of the temporary file, and the
chunk's when the call returns without an error. -/
structure Stepped (pid : Nat) (chunk : Chunk) (d d' : Disk Path) (call' : Call) : Prop where
  disk : d'.Ok
  call : call'.Ok pid chunk d'
  others : ∀ name, name ≠ tmpPath pid (pathForChunk chunk.header.id) →
    name ≠ pathForChunk chunk.header.id → d.Same d' name
  published : (call' ≠ .returned none ∧ d.Same d' (pathForChunk chunk.header.id)) ∨
    (call' = .returned none ∧ d'.read (pathForChunk chunk.header.id) = some chunk.bytes)

variable {call' : Call}

lemma Stepped.of_same (hdisk : d'.Ok) (hcall : call'.Ok pid chunk d')
    (hreturned : call' ≠ .returned none)
    (hsame : ∀ name, name ≠ tmpPath pid (pathForChunk chunk.header.id) → d.Same d' name) :
    Stepped pid chunk d d' call' :=
  ⟨hdisk, hcall, fun name htmp _ => hsame name htmp,
    .inl ⟨hreturned, hsame _ (tmpPath_ne_pathForChunk pid _ _).symm⟩⟩

/-- A write to the temporary file. -/
lemma Stepped.write (hdisk : d.Ok)
    (hholds : d.Holds (tmpPath pid (pathForChunk chunk.header.id)) f contents) (data : List UInt8)
    (hreturned : call' ≠ .returned none)
    (hcall : (d.write f data).1.Holds (tmpPath pid (pathForChunk chunk.header.id))
      (d.write f data).2 (contents ++ data) → call'.Ok pid chunk (d.write f data).1) :
    Stepped pid chunk d (d.write f data).1 call' :=
  .of_same (hdisk.write ..) (hcall (hholds.write data)) hreturned
    fun _ htmp => hholds.same_write hdisk htmp data

lemma next_stepped (hdisk : d.Ok) (hcall : call.Ok pid chunk d)
    (hnext : call.next pid chunk d outcome = some (d', call')) : Stepped pid chunk d d' call' := by
  -- most steps leave the disk as it is
  have hidle : ∀ {call'' : Call}, call''.Ok pid chunk d → call'' ≠ .returned none →
      Stepped pid chunk d d call'' :=
    fun hok hne => .of_same hdisk hok hne fun name _ => .refl d name
  cases call with
  | called =>
    cases outcome with
    | done =>
      cases hnext
      exact hidle trivial (by simp)
    | failed n =>
      cases hnext
      exact hidle (fun h => by cases h) (by simp)
  | creating =>
    cases outcome with
    | done =>
      cases hnext
      exact .of_same (hdisk.create _) (d.holds_create _) (by simp)
        fun _ htmp => hdisk.same_create htmp
    | failed n =>
      cases hnext
      exact hidle (fun h => by cases h) (by simp)
  | header f =>
    cases outcome with
    | done =>
      cases hnext
      exact .write hdisk hcall _ (by simp) id
    | failed n =>
      cases hnext
      exact .write hdisk hcall _ (by simp) fun _ => PutError.noConfusion
  | data f =>
    cases outcome with
    | done =>
      cases hnext
      exact .write hdisk hcall _ (by simp) id
    | failed n =>
      cases hnext
      exact .write hdisk hcall _ (by simp) fun _ => PutError.noConfusion
  | syncing f =>
    cases outcome with
    | done =>
      cases hnext
      exact hidle hcall (by simp)
    | failed n =>
      cases hnext
      exact hidle PutError.noConfusion (by simp)
  | closing f =>
    cases hnext
    exact hidle (Disk.Holds.read hcall) (by simp)
  | publishing =>
    cases outcome with
    | done =>
      obtain ⟨d'', hrename, hrenamed⟩ :=
        hdisk.renamed hcall (pathForChunk chunk.header.id)
      simp only [Call.next, hrename] at hnext
      cases hnext
      exact ⟨hrenamed.ok, (fun h => by cases h), hrenamed.same,
        .inr ⟨rfl, hrenamed.read.trans hcall⟩⟩
    | failed n =>
      cases hnext
      exact hidle (fun h => by cases h) (by simp)
  | failed f e =>
    cases hnext
    exact hidle hcall (by simp)
  | removing e =>
    have hreturned : some e ≠ some .notExist := fun heq => hcall (Option.some.inj heq)
    cases outcome with
    | done =>
      cases hnext
      exact .of_same (hdisk.remove _) hreturned (by simp) fun _ htmp => Disk.same_remove htmp
    | failed n =>
      cases hnext
      exact hidle hreturned (by simp)
  | returned e => cases hnext

/-! ## Runs -/

variable {pid : Nat} {chunks : Nat → Chunk}

/-- The file of a chunk is the one from the beginning, or that of a call
that has returned. -/
def Puts.Published (chunks : Nat → Chunk) (d₀ : Disk Path) (s : Puts) (id : ChunkID) : Prop :=
  s.disk.read (pathForChunk id) = d₀.read (pathForChunk id) ∨
    ∃ i, (chunks i).header.id = id ∧ s.calls i = .returned none ∧
      s.disk.read (pathForChunk id) = some (chunks i).bytes

structure Puts.Ok (pid : Nat) (chunks : Nat → Chunk) (d₀ : Disk Path) (s : Puts) : Prop where
  disk : s.disk.Ok
  calls : ∀ i, (s.calls i).Ok pid (chunks i) s.disk
  alone : ∀ i j, (chunks i).header.id = (chunks j).header.id → (s.calls i).InProgress →
    (s.calls j).InProgress → i = j
  published : ∀ id, s.Published chunks d₀ id

variable {d₀ : Disk Path}

lemma Puts.ok_init (h : d₀.Ok) : (Puts.init d₀).Ok pid chunks d₀ :=
  ⟨h, fun _ => trivial, fun _ _ _ hi => absurd hi id, fun _ => .inl rfl⟩

variable {s s' : Puts} {a : PutStep}

/-- What a step is, and what is known of the call that takes it. -/
lemma Puts.Ok.stepped (hok : s.Ok pid chunks d₀) (hstep : Puts.step pid chunks a s = some s') :
    ∃ call', s'.calls = update s.calls a.call call' ∧
      (s.calls a.call).next pid (chunks a.call) s.disk a.outcome = some (s'.disk, call') ∧
      Stepped pid (chunks a.call) s.disk s'.disk call' := by
  obtain ⟨⟨d', call'⟩, hnext, rfl⟩ := map_eq_some_iff.mp hstep
  exact ⟨call', rfl, hnext, next_stepped hok.disk (hok.calls a.call) hnext⟩

lemma next_inProgress (hnext : call.next pid chunk d outcome = some (d', call')) :
    call = .called ∨ call.InProgress := by
  cases call with
  | called => exact .inl rfl
  | returned e => cases hnext
  | _ => exact .inr trivial

/-- No other call for the chunk is in progress when a call takes a step. -/
lemma Puts.Ok.others_idle (hok : s.Ok pid chunks d₀) (halone : Alone chunks a s)
    (hstep : Puts.step pid chunks a s = some s') (other : Nat) (hother : other ≠ a.call)
    (hid : (chunks other).header.id = (chunks a.call).header.id) :
    ¬ (s.calls other).InProgress := by
  obtain ⟨call', -, hnext, -⟩ := hok.stepped hstep
  rcases next_inProgress hnext with hcalled | hprogress
  · exact halone hcalled other hid
  · exact fun h => hother (hok.alone _ _ hid h hprogress)

/-- A step that is not the last of a call leaves the files of all chunks;
the last one, if there is no error, is one update of the store. -/
lemma Puts.Ok.step_read (hok : s.Ok pid chunks d₀) (hstep : Puts.step pid chunks a s = some s')
    (id : ChunkID) :
    (s'.calls a.call ≠ .returned none ∧
      s'.disk.read (pathForChunk id) = s.disk.read (pathForChunk id)) ∨
    (s'.calls a.call = .returned none ∧ s'.disk.read (pathForChunk id) =
        ((Storage.mk s.disk.read).putChunk (chunks a.call)).files (pathForChunk id)) := by
  obtain ⟨call', hcalls, -, hstepped⟩ := hok.stepped hstep
  have hself : s'.calls a.call = call' := by rw [hcalls, update_self]
  rw [hself, Storage.putChunk]
  dsimp only
  by_cases hid : id = (chunks a.call).header.id
  · subst hid
    rw [update_self]
    exact hstepped.published.imp_left fun h => ⟨h.1, h.2.read⟩
  · have hpath : pathForChunk id ≠ pathForChunk (chunks a.call).header.id :=
      fun h => hid (pathForChunk_injective h)
    have hread := (hstepped.others _ (tmpPath_ne_pathForChunk pid _ _).symm hpath).read
    rw [update_of_ne hpath]
    exact hstepped.published.imp (fun h => ⟨h.1, hread⟩) fun h => ⟨h.1, hread⟩

lemma Puts.Ok.step (hok : s.Ok pid chunks d₀) (halone : Alone chunks a s)
    (hstep : Puts.step pid chunks a s = some s') : s'.Ok pid chunks d₀ := by
  have hidle := hok.others_idle halone hstep
  obtain ⟨call', hcalls, hnext, hstepped⟩ := hok.stepped hstep
  have hself : s'.calls a.call = call' := by rw [hcalls, update_self]
  have hsame : ∀ other, other ≠ a.call → s'.calls other = s.calls other := by
    intro other hother
    rw [hcalls, update_of_ne hother]
  refine ⟨hstepped.disk, fun i => ?_, fun i j hid hi hj => ?_, fun id => ?_⟩
  · by_cases hi : i = a.call
    · rw [hi, hself]
      exact hstepped.call
    · rw [hsame i hi]
      by_cases hid : (chunks i).header.id = (chunks a.call).header.id
      · exact (hok.calls i).idle (hidle i hi hid) _
      · exact (hok.calls i).same (hstepped.others _ (fun h => hid (tmpPath_injective h))
          (tmpPath_ne_pathForChunk pid _ _))
  · by_cases hi' : i = a.call
    · by_cases hj' : j = a.call
      · rw [hi', hj']
      · rw [hsame j hj'] at hj
        exact absurd hj (hidle j hj' (hi' ▸ hid.symm))
    · rw [hsame i hi'] at hi
      by_cases hj' : j = a.call
      · exact absurd hi (hidle i hi' (hj' ▸ hid))
      · rw [hsame j hj'] at hj
        exact hok.alone i j hid hi hj
  · -- a call that has returned takes no step
    have hreturned : ∀ i, s.calls i = .returned none → s'.calls i = .returned none := by
      intro i hi
      rw [hsame i, hi]
      rintro rfl
      rw [hi] at hnext
      cases hnext
    have hold : s'.disk.read (pathForChunk id) = s.disk.read (pathForChunk id) →
        s'.Published chunks d₀ id := by
      intro hread
      rw [Puts.Published, hread]
      exact (hok.published id).imp_right fun ⟨i, hi, hcall, hbytes⟩ =>
        ⟨i, hi, hreturned i hcall, hbytes⟩
    rcases hok.step_read hstep id with ⟨-, hread⟩ | ⟨hcall, hread⟩
    · exact hold hread
    · by_cases hid : id = (chunks a.call).header.id
      · subst hid
        exact .inr ⟨a.call, rfl, hcall, hread.trans (update_self ..)⟩
      · refine hold (hread.trans (update_of_ne ?_ ..))
        exact fun h => hid (pathForChunk_injective h)

/-- The call has met no error so far. -/
def Call.Fine : Call → Prop
  | .failed _ _ | .removing _ | .returned (some _) => False
  | _ => True

/-- A step that the file system does not fail meets no error: the temporary
file is there to be renamed. -/
lemma next_fine (hdisk : d.Ok) (hcall : call.Ok pid chunk d) (hfine : call.Fine)
    (hnext : call.next pid chunk d .done = some (d', call')) : call'.Fine := by
  cases call with
  | failed | removing => exact absurd hfine id
  | returned e => cases hnext
  | publishing =>
    obtain ⟨d'', hrename, -⟩ := hdisk.renamed hcall (pathForChunk chunk.header.id)
    simp only [Call.next, hrename] at hnext
    cases hnext
    trivial
  | called | creating | header | data | syncing | closing =>
    cases hnext
    trivial

/-- If calls for one chunk are not in progress at once, then in every state
of every run the file of a chunk is the one from the beginning or the whole
chunk of a call that has returned; a call none of whose own steps the file
system fails does not return an error; and each call takes effect in one
step, as `Storage.putChunk`. -/
theorem putChunk_alone {d₀ : Disk Path} {s : Puts} (hdisk : d₀.Ok)
    (hrun : Run (Puts.step pid chunks) (Alone chunks) (Puts.init d₀) s) :
    (∀ id, s.disk.read (pathForChunk id) = d₀.read (pathForChunk id) ∨
      ∃ i, (chunks i).header.id = id ∧ s.calls i = .returned none ∧
        s.disk.read (pathForChunk id) = some (chunks i).bytes) ∧
    (∀ i e, Run (Puts.step pid chunks)
        (fun a s => Alone chunks a s ∧ (a.call = i → a.outcome = .done)) (Puts.init d₀) s →
      s.calls i ≠ .returned (some e)) ∧
    ∀ a s' id, Puts.step pid chunks a s = some s' → (s'.calls a.call ≠ .returned none ∧
        s'.disk.read (pathForChunk id) = s.disk.read (pathForChunk id)) ∨
      (s'.calls a.call = .returned none ∧ s'.disk.read (pathForChunk id) =
          ((Storage.mk s.disk.read).putChunk (chunks a.call)).files (pathForChunk id)) := by
  have hok : s.Ok pid chunks d₀ :=
    hrun.inv (Puts.ok_init hdisk) fun _ _ _ halone hstep hok => hok.step halone hstep
  refine ⟨hok.published, fun i e hrun' he => ?_, fun a s' id hstep => hok.step_read hstep id⟩
  have hfine : s.Ok pid chunks d₀ ∧ (s.calls i).Fine := by
    refine hrun'.inv (I := fun s => s.Ok pid chunks d₀ ∧ (s.calls i).Fine)
      ⟨Puts.ok_init hdisk, trivial⟩ ?_
    rintro a s s' ⟨halone, hdone⟩ hstep ⟨hok, hfine⟩
    refine ⟨hok.step halone hstep, ?_⟩
    obtain ⟨call', hcalls, hnext, -⟩ := hok.stepped hstep
    rw [hcalls]
    by_cases hi : i = a.call
    · subst hi
      rw [update_self]
      rw [hdone rfl] at hnext
      exact next_fine hok.disk (hok.calls a.call) hfine hnext
    · rwa [update_of_ne hi]
  rw [he] at hfine
  exact hfine.2

/-! ## Two calls for one chunk -/

def someId : Block 32 := ⟨List.replicate 32 3, List.length_replicate⟩

def someChunk : Chunk :=
  ⟨⟨1, someId, 0, 0, 0, 0, ⟨List.replicate 12 4, List.length_replicate⟩⟩, [5]⟩

def emptyDisk : Disk Path := ⟨fun _ => none, fun _ => [], 0⟩

/-- Steps of a call that all succeed. -/
def steps (call n : Nat) : List PutStep := List.replicate n ⟨call, .done⟩

/-- A call goes on while no other is in progress. -/
lemma run_steps : ∀ {s s' : Puts}, Run (Puts.step pid chunks) (Alone chunks) s₀ s →
    (∀ j, j ≠ i → ¬ (s.calls j).InProgress) →
    execute (Puts.step pid chunks) (steps i n) s = some s' →
    Run (Puts.step pid chunks) (Alone chunks) s₀ s' := by
  induction n with
  | zero =>
    intro s s' hrun _ hexec
    cases hexec
    exact hrun
  | succ n ih =>
    intro s s' hrun hidle hexec
    obtain ⟨s₁, hstep, hrest⟩ := bind_eq_some_iff.mp hexec
    have halone : Alone chunks ⟨i, .done⟩ s := by
      intro hcalled other _
      by_cases hother : other = i
      · rw [hother, hcalled]
        exact id
      · exact hidle other hother
    refine ih (hrun.tail halone hstep) (fun j hj => ?_) hrest
    obtain ⟨r, -, rfl⟩ := map_eq_some_iff.mp hstep
    dsimp only
    rw [update_of_ne hj]
    exact hidle j hj

/-- One call after the other. -/
theorem putChunk_alone_twice : ∃ s,
    Run (Puts.step 1 fun _ => someChunk) (Alone fun _ => someChunk) (Puts.init emptyDisk) s ∧
      s.calls 0 = .returned none ∧ s.calls 1 = .returned none ∧
      ∃ i, (someChunk.header.id = someId ∧ s.calls i = .returned none ∧
        s.disk.read (pathForChunk someId) = some someChunk.bytes) := by
  have hexec : ∃ s s',
      execute (Puts.step 1 fun _ => someChunk) (steps 0 7) (Puts.init emptyDisk) = some s ∧
        (∀ j, j ≠ 1 → ¬ (s.calls j).InProgress) ∧
        execute (Puts.step 1 fun _ => someChunk) (steps 1 7) s = some s' ∧
        s'.calls 0 = .returned none ∧ s'.calls 1 = .returned none ∧
        s'.disk.read (pathForChunk someId) ≠ none := by
    refine ⟨_, _, rfl, fun j _ => ?_, rfl, rfl, rfl, by decide⟩
    cases j with
    | zero => exact id
    | succ j => exact id
  obtain ⟨s, s', hfirst, hidle, hsecond, h0, h1, hsome⟩ := hexec
  have hrun := run_steps (run_steps .refl (fun _ _ => id) hfirst) hidle hsecond
  have hdisk : emptyDisk.Ok := ⟨fun h => (by cases h), fun h => (by cases h)⟩
  refine ⟨s', hrun, h0, h1, ?_⟩
  rcases (putChunk_alone hdisk hrun).1 someId with hread | hpublished
  · exact absurd hread hsome
  · exact hpublished

/-- A call has written and closed its file when another for the same chunk
truncates it: what it then renames is empty, and the other has no file to
rename. -/
theorem putChunk_truncated : ∃ s s',
    execute (Puts.step 1 fun _ => someChunk) (steps 0 6 ++ steps 1 2 ++ steps 0 1)
        (Puts.init emptyDisk) = some s ∧
      s.calls 0 = .returned none ∧
      s.disk.read (pathForChunk someId) = some [] ∧
      (∀ chunk : Chunk, s.disk.read (pathForChunk someId) ≠ some chunk.bytes) ∧
      execute (Puts.step 1 fun _ => someChunk) (steps 1 5) s = some s' ∧
      s'.calls 1 = .returned (some .notExist) := by
  refine ⟨_, _, rfl, rfl, rfl, fun chunk h => ?_, rfl, rfl⟩
  have hlen : 0 = chunk.bytes.length := congrArg List.length (Option.some.inj h)
  rw [chunk.length_bytes] at hlen
  omega

end Cipher.Content
