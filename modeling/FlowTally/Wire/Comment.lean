import FlowTally.Bytes
import FlowTally.Wire.Error
/-!
# Comments

The user data of a rule is a list of entries, each a kind, a length and that many bytes. The first
entry of kind zero is the comment, a string with its terminator.
-/

namespace FlowTally.Wire

/-- User data that holds a comment and nothing else. -/
def userdata (comment : String) : Except EncodeError Bytes :=
  let bs := Bytes.ofString comment
  if maxCommentBytes < bs.length then .error .commentTooLong
  else if 0 ∈ bs then .error .nulInComment
  else .ok ([0, UInt8.ofNat (bs.length + 1)] ++ bs ++ [0])

/-- The comment in user data, if there is one before the first entry that is cut short. -/
def readComment : Bytes → Option String
  | kind :: length :: rest =>
    let value := rest.take length.toNat
    if value.length < length.toNat then none
    else if kind = 0 then Bytes.toString? (Bytes.untilNul value)
    else readComment (rest.drop length.toNat)
  | _ => none
termination_by data => data.length
decreasing_by simp only [List.length_drop, List.length_cons]; omega

end FlowTally.Wire
