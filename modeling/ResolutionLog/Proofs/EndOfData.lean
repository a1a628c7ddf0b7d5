import ResolutionLog.Materialize

/-! # Errors about the end of the data

Two errors tell that the data ended too early: a frame is cut short, or no root was found. Only reading can
tell: neither a body that does not decode nor a record that cannot be applied gives one of them
(`Record.endFree_decodeBody`, `Draft.endFree_apply`, `Draft.endFree_finish`). -/

namespace ResolutionLog

/-- Whether an error says that the data ended too early. -/
def LogError.marksEnd : LogError → Bool
  | .truncatedRecord _ _ | .rootNotFound _ => true
  | _ => false

/-- If a computation fails, it is not because the data ended too early. -/
def EndFree {α : Type} (x : Except LogError α) : Prop := ∀ e, x = .error e → e.marksEnd = false

namespace EndFree

variable {α β : Type}

/-- What has succeeded has not failed for lack of data. -/
theorem ok (a : α) : EndFree (.ok a) := fun _ h => nomatch h

/-- An error of another kind. -/
theorem error {e : LogError} (h : e.marksEnd = false) : EndFree (.error e : Except LogError α) := by
  rintro _ ⟨⟩
  exact h

/-- Two steps, neither of which fails for lack of data. -/
theorem bind {x : Except LogError α} {f : α → Except LogError β} (h : EndFree x)
    (hf : ∀ a, EndFree (f a)) : EndFree (x >>= f) := by
  cases x with
  | error e => exact .error (h e rfl)
  | ok a => exact hf a

/-- All errors may be turned into errors of other kinds. -/
theorem mapError {ε : Type} {f : ε → LogError} (hf : ∀ e, (f e).marksEnd = false) (x : Except ε α) :
    EndFree (x.mapError f) := by
  cases x with
  | error e => exact .error (hf e)
  | ok a => exact .ok a

/-- Requiring a text never fails for lack of data. -/
theorem requireText (part text : String) : EndFree (ResolutionLog.requireText part text) := by
  unfold ResolutionLog.requireText
  split
  · exact .error rfl
  · exact .ok text

/-- Requiring a text that may be missing never fails for lack of data. -/
theorem requireOption (part : String) (o : Option String) :
    EndFree (ResolutionLog.requireOption part o) := by
  cases o with
  | none => exact .ok none
  | some text => exact .bind (.requireText part text) fun t => .ok (some t)

/-- Checks in a row, none of which fails for lack of data. -/
theorem forM {xs : List α} {check : α → Except LogError Unit} (h : ∀ x, EndFree (check x)) :
    EndFree (xs.forM check) := by
  induction xs with
  | nil => exact .ok ()
  | cons x xs ih => exact .bind (h x) fun _ => ih

end EndFree

/-- A body that is too short for its selector cannot be decoded, which is another kind of error. -/
theorem Selector.endFree_take (bytes : List UInt8) : EndFree (take bytes) := by
  have hpart : ∀ {α : Type} (read : List UInt8 → Except WireFault (α × List UInt8)) (bytes : List UInt8),
      EndFree (takePart read bytes) := fun read bytes => .mapError (fun _ => rfl) (read bytes)
  unfold take
  split
  · exact .error rfl
  · refine .bind (hpart _ _) fun (path, rest) => .bind ?_ fun s => .ok _
    exact .bind (.requireText _ _) fun _ => .ok _
  · refine .bind (hpart _ _) fun (group, rest) => .bind (hpart _ _) fun (name, rest) =>
      .bind (hpart _ _) fun (version, rest) => .bind ?_ fun s => .ok _
    exact .bind (.requireText _ _) fun _ => .bind (.requireText _ _) fun _ =>
      .bind (.bind (.requireText _ _) fun _ => .ok _) fun _ => .ok _
  · refine .bind (hpart _ _) fun (path, rest) => .bind (hpart _ _) fun (name, rest) =>
      .bind (hpart _ _) fun (variant, rest) => .bind ?_ fun s => .ok _
    exact .bind (.requireText _ _) fun _ => .bind (.requireOption _ _) fun _ =>
      .bind (.requireOption _ _) fun _ => .ok _
  · exact .error rfl

/-- What a body lacks is not data. -/
theorem Record.endFree_decodeBody (kind : RecordKind) (body : List UInt8) :
    EndFree (decodeBody kind body) := by
  have hfield : ∀ {α : Type} (read : List UInt8 → Except WireFault (α × List UInt8)) (bytes : List UInt8),
      EndFree (takeField kind read bytes) := fun read bytes => .mapError (fun _ => rfl) (read bytes)
  refine .bind ?_ fun (record, rest) => ?_
  · cases kind with
    | newNode | root | firstLevel => exact .bind (hfield _ _) fun _ => .ok _
    | parentChild =>
      exact .bind (hfield _ _) fun _ => .bind (hfield _ _) fun _ => .bind (hfield _ _) fun _ => .ok _
    | unresolved =>
      exact .bind (hfield _ _) fun _ => .bind (Selector.endFree_take _) fun _ =>
        .bind (hfield _ _) fun _ => .ok _
  · simp only
    split
    · exact .ok _
    · exact .error rfl

/-- Requiring a node never fails for lack of data. -/
theorem NodeTable.endFree_require (nodes : NodeTable) (key : NodeKey) : EndFree (nodes.require key) := by
  unfold require
  split
  · exact .ok ()
  · exact .error rfl

/-- Applying a record never fails for lack of data. -/
theorem Draft.endFree_apply (contents : Contents) (d : Draft) (record : Record) :
    EndFree (d.apply contents record) := by
  have hrequire := d.nodes.endFree_require
  -- a record is taken by checks in a row, each with errors of its own
  cases record with
  | newNode key =>
    refine .bind ?_ fun _ => .ok _
    unfold addNode
    split
    · exact .error rfl
    · exact .ok _
  | parentChild parent child handle =>
    refine .bind (.bind (hrequire _) fun _ => .bind (hrequire _) fun _ => .bind ?_ fun _ =>
      .bind ?_ fun _ => .ok _) fun _ => .ok _
    · unfold artifactsFor
      split
      · exact .ok _
      · exact .error rfl
      · exact .error rfl
    · unfold requestFor
      split
      · exact .ok _
      · exact .ok _
      · exact .error rfl
  | firstLevel key =>
    refine .bind (.bind (hrequire _) fun _ => ?_) fun _ => .ok _
    split
    · exact .ok _
    · exact .error rfl
    · exact .error rfl
  | unresolved parent requested reason =>
    exact .bind (.bind (hrequire _) fun _ => .ok _) fun _ => .ok _
  | root key => exact .bind (hrequire _) fun _ => .ok _

/-- Finishing a draft never fails for lack of data. -/
theorem Draft.endFree_finish (d : Draft) (root : NodeKey) : EndFree (d.finish root) := by
  refine .bind (d.nodes.endFree_require root) fun _ => .bind (.forM d.nodes.endFree_require) fun _ =>
    .bind (.forM fun node => .forM d.nodes.endFree_require) fun _ => ?_
  split
  · exact .error rfl
  · exact .ok _

end ResolutionLog
