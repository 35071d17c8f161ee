import IamKeeper.Job

namespace IamKeeper.Iam

open Job (iam debug)

def removeTags (target : TagTarget) (keys : List String) : Job Unit :=
  if keys.isEmpty then pure ()
  else do
    debug s!"removing tags {Text.quotedList keys} from {target.text}"
    iam (.untag target keys)

def setTags (target : TagTarget) (tags : List Tag) : Job Unit :=
  if tags.isEmpty then pure ()
  else do
    debug s!"adding {tags.length} tag(s) to {target.text}"
    iam (.tag target tags)

/-- Removes tags and sets tags, with at most one call each. Tags are removed first, so that none stays
behind when setting others fails. -/
def syncTags (target : TagTarget) (desired latest : List Tag) : Job Unit := do
  let delta := TagDelta.between latest desired
  removeTags target delta.remove
  setTags target delta.set

end IamKeeper.Iam
