import WordTape.Numeric.Decimal

/-!
# Brainfuck programs

A Brainfuck program is kept as a list of nodes: changes of the current cell and of
the pointer by any amount, input and output, and loops over nodes. Its text has
one command for each unit of an amount.
-/

set_option autoImplicit false

namespace WordTape.Brainfuck

inductive Node where
  | add (amount : Int)
  | move (distance : Int)
  | command (text : Bytes)
  | loop (body : List Node)
deriving Inhabited, Repr

mutual

/-- Whether two nodes are the same, decided together with the same question for lists. -/
def Node.decEq : (first second : Node) → Decidable (first = second)
  | .add amount, .add other => decidable_of_iff (amount = other) (by rw [Node.add.injEq])
  | .move distance, .move other => decidable_of_iff (distance = other) (by rw [Node.move.injEq])
  | .command text, .command other => decidable_of_iff (text = other) (by rw [Node.command.injEq])
  | .loop body, .loop other =>
      @decidable_of_iff _ (body = other) (by rw [Node.loop.injEq]) (Node.decEqList body other)
  | .add _, .move _ | .add _, .command _ | .add _, .loop _ => isFalse nofun
  | .move _, .add _ | .move _, .command _ | .move _, .loop _ => isFalse nofun
  | .command _, .add _ | .command _, .move _ | .command _, .loop _ => isFalse nofun
  | .loop _, .add _ | .loop _, .move _ | .loop _, .command _ => isFalse nofun

def Node.decEqList : (first second : List Node) → Decidable (first = second)
  | [], [] => isTrue rfl
  | [], _ :: _ | _ :: _, [] => isFalse nofun
  | node :: rest, other :: others =>
      match Node.decEq node other, Node.decEqList rest others with
      | isTrue same, isTrue sameRest => isTrue (by rw [same, sameRest])
      | isFalse different, _ => isFalse fun equal => different (List.cons.inj equal).1
      | _, isFalse different => isFalse fun equal => different (List.cons.inj equal).2

end

instance : DecidableEq Node := Node.decEq

def inputCommand : Bytes := Bytes.ofString ","

def outputCommand : Bytes := Bytes.ofString "."

/-- As many commands as an amount has units: the one for positive amounts or the one
for negative ones. -/
def units (positive negative : UInt8) : Int → Bytes
  | .ofNat count => List.replicate count positive
  | .negSucc predecessor => List.replicate (predecessor + 1) negative

mutual

def Node.text : Node → Bytes
  | .add amount => units 43 45 amount
  | .move distance => units 62 60 distance
  | .command text => text
  | .loop body => 91 :: (text body ++ [93])

def text : List Node → Bytes
  | [] => []
  | node :: rest => node.text ++ text rest

end

end WordTape.Brainfuck
