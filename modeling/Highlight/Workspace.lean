import Highlight.Editor.Results

/-!
# Linked editors

Editors known by name, some of which follow others. What an editor tells its followers is put into
their inboxes, update by update, and waits there until they look at it. An editor that was closed is
told nothing.

* `Workspace.act`: an operation on one editor, followed by the delivery of what it told;
* `Workspace.link`: makes one editor a follower of another;
* `Workspace.close`: removes an editor.
-/

namespace Highlight

/-- An editor with its name and the names of its followers, in the order they were linked. -/
structure Member where
  name : String
  editor : Editor
  followers : List String

/-- The editors that are open. -/
structure Workspace where
  members : List Member

namespace Workspace

/-- Editors with their names, none of them linked. -/
def ofEditors (editors : List (String × Editor)) : Workspace :=
  ⟨editors.map fun (name, editor) => ⟨name, editor, []⟩⟩

/-- The member with a name. -/
def member? (w : Workspace) (name : String) : Option Member := w.members.find? (·.name == name)

/-- The editor with a name. -/
def editor? (w : Workspace) (name : String) : Option Editor := (w.member? name).map (·.editor)

/-- Changes the member with a name. -/
def modify (w : Workspace) (name : String) (f : Member → Member) : Workspace :=
  ⟨w.members.map fun m => if m.name = name then f m else m⟩

/-- Changes the editor with a name. -/
def modifyEditor (w : Workspace) (name : String) (f : Editor → Editor) : Workspace :=
  w.modify name fun m => { m with editor := f m.editor }

/-- Puts an update into the inbox of a follower. -/
def deliverTo (w : Workspace) (update : Update) (follower : String) : Workspace :=
  w.modifyEditor follower fun e => { e with inbox := e.inbox ++ [update] }

/-- Delivers what the editor with a name has told since the last delivery. Every update reaches all
followers before the next one does; an editor linked twice is told everything twice. -/
def deliverFrom (w : Workspace) (name : String) : Workspace :=
  match w.member? name with
  | none => w
  | some m =>
    let emptied := w.modifyEditor name fun e => { e with outbox := [] }
    m.editor.outbox.foldl (fun w update => m.followers.foldl (·.deliverTo update) w) emptied

/-- An operation on the editor with a name, with its answer, if there is such an editor. -/
def act {α : Type} (w : Workspace) (name : String) (f : Editor → α × Editor) :
    Option (α × Workspace) :=
  (w.editor? name).map fun e =>
    let (answer, e) := f e
    (answer, (w.modifyEditor name fun _ => e).deliverFrom name)

/-- Makes `follower` follow the caret, the selection and the language of `leader`. The user may not
edit a follower. -/
def link (w : Workspace) (leader follower : String) : Workspace :=
  (w.modifyEditor follower (·.setEditable false)).modify leader fun m =>
    { m with followers := m.followers ++ [follower] }

/-- Removes the editor with a name. -/
def close (w : Workspace) (name : String) : Workspace :=
  ⟨w.members.filter (·.name != name)⟩

end Workspace

end Highlight
