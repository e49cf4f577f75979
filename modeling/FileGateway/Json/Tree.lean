import FileGateway.Json.Token

/-!
# JSON trees

The tree of a JSON text, as far as the text goes. A text that breaks off gives the tree of what
stands before the break, with the break as its last leaf, and every array and object around the
break marked as cut. So whoever walks a tree from left to right meets a fault of the text exactly
where it stands, after everything that stands before it.
-/

namespace FileGateway.Json

/-- A JSON value as it is written, up to the place where the text breaks off, if it does. The
members of an object are in the order they are written.

If an array is cut, either its last item is broken or the text broke after that item; `cut` is how
the text breaks for whoever passes over the array. It is the same with an object. -/
inductive Tree where
  | null
  | bool (value : Bool)
  | number (numeral : Numeral)
  | string (raw : List Char)
  | array (items : List Tree) (cut : Option Break)
  | object (members : List (Tree × Tree)) (cut : Option Break)
  | broken (part : Part) (why : Break)

namespace Tree

/-- An array or an object around the value that is being read, with what it holds before that value,
the last first. -/
inductive Frame where
  | item (before : List Tree)
  | member (before : List (Tree × Tree)) (key : Tree)

/-- What may come next: a value, the first item or key or the end right away, a key or a colon, or
after the items or members that are already there a comma or the end. -/
inductive Expected where
  | value
  | itemOrClose
  | itemComma (before : List Tree)
  | keyOrClose
  | key (before : List (Tree × Tree))
  | colon (before : List (Tree × Tree)) (key : Tree)
  | memberComma (before : List (Tree × Tree))

/-- The tree of a text that breaks off, given what was read of the value in the innermost frame. -/
def cutOff (why : Break) : List Frame → Tree → Tree
  | [], value => value
  | .item before :: frames, value => cutOff why frames (array (value :: before).reverse (some why))
  | .member before key :: frames, value =>
    cutOff why frames (object ((key, value) :: before).reverse (some why))

/-- How a text breaks for whoever passes over its values: a number that lacks digits is malformed
then, even if the text ends there. -/
def passed : Part → Break → Break
  | .number, _ => .malformed
  | _, why => why

/-- The text breaks where a value should start, or within a value that holds no others. -/
def cutAt (frames : List Frame) (part : Part) (why : Break) : Tree :=
  cutOff (passed part why) frames (broken part why)

/-- The text breaks in an object, at or after a key. -/
def cutMember (frames : List Frame) (before : List (Tree × Tree)) (key : Tree) (why : Break) :
    Tree :=
  cutOff why frames (object ((key, broken .nothing why) :: before).reverse (some why))

/-- A token in the place of a key that is not a whole string, and how the text breaks there.
Whatever is no string is malformed from its first character on, even if the text ends in the middle
of it. -/
def oddKey : Token → Tree × Break
  | .broken (.string raw) why => (broken (.string raw) why, why)
  | _ => (broken .nothing .malformed, .malformed)

/-- What a finished value makes of the frames around it. -/
def settle : List Frame → Tree → Sum Tree (Expected × List Frame)
  | [], value => .inl value
  | .item before :: frames, value => .inr (.itemComma (value :: before), frames)
  | .member before key :: frames, value => .inr (.memberComma ((key, value) :: before), frames)

/-- What one token does: the text breaks, or the token finishes a value, or it leads on. -/
inductive Progress where
  | cut (tree : Tree)
  | finished (value : Tree) (frames : List Frame)
  | onward (expected : Expected) (frames : List Frame)

/-- A token where a value is expected. -/
def startValue (frames : List Frame) : Token → Progress
  | .null => .finished null frames
  | .bool value => .finished (bool value) frames
  | .number numeral => .finished (number numeral) frames
  | .string raw => .finished (string raw) frames
  | .openArray => .onward .itemOrClose frames
  | .openObject => .onward .keyOrClose frames
  | .broken part why => .cut (cutAt frames part why)
  | _ => .cut (cutAt frames .nothing .malformed)

/-- A token where a key is expected. -/
def startKey (frames : List Frame) (before : List (Tree × Tree)) : Token → Progress
  | .string raw => .onward (.colon before (string raw)) frames
  | token => .cut (cutMember frames before (oddKey token).1 (oddKey token).2)

/-- Takes a token. -/
def take (expected : Expected) (frames : List Frame) (token : Token) : Progress :=
  match expected, token with
  | .value, token => startValue frames token
  | .itemOrClose, .closeArray => .finished (array [] none) frames
  | .itemOrClose, token => startValue (.item [] :: frames) token
  | .itemComma before, .comma => .onward .value (.item before :: frames)
  | .itemComma before, .closeArray => .finished (array before.reverse none) frames
  | .itemComma before, _ =>
    .cut (cutOff .malformed frames (array before.reverse (some .malformed)))
  | .keyOrClose, .closeObject => .finished (object [] none) frames
  | .keyOrClose, token => startKey frames [] token
  | .key before, token => startKey frames before token
  | .colon before key, .colon => .onward .value (.member before key :: frames)
  | .colon before key, _ => .cut (cutMember frames before key .malformed)
  | .memberComma before, .comma => .onward (.key before) frames
  | .memberComma before, .closeObject => .finished (object before.reverse none) frames
  | .memberComma before, _ =>
    .cut (cutOff .malformed frames (object before.reverse (some .malformed)))

/-- The text is over before the value is. -/
def outOfText (expected : Expected) (frames : List Frame) : Tree :=
  match expected with
  | .value => cutAt frames .nothing .ended
  | .itemOrClose => cutOff .ended frames (array [] (some .ended))
  | .itemComma before => cutOff .ended frames (array before.reverse (some .ended))
  | .keyOrClose => cutMember frames [] (broken .nothing .ended) .ended
  | .key before => cutMember frames before (broken .nothing .ended) .ended
  | .colon before key => cutMember frames before key .ended
  | .memberComma before => cutOff .ended frames (object before.reverse (some .ended))

/-- Reads a value from tokens, and gives the tokens after it. -/
def build (expected : Expected) (frames : List Frame) : List Token → Tree × List Token
  | [] => (outOfText expected frames, [])
  | token :: rest =>
    match take expected frames token with
    | .cut tree => (tree, [])
    | .onward expected frames => build expected frames rest
    | .finished value frames =>
      match settle frames value with
      | .inl value => (value, rest)
      | .inr (expected, frames) => build expected frames rest

/-- The tree at the start of a sequence of tokens, and the tokens after it. -/
def ofTokens (tokens : List Token) : Tree × List Token :=
  build .value [] tokens

end Tree

end FileGateway.Json
