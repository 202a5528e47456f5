namespace JoinGraph

def version : List Nat :=
  [1, 0, 0]

end JoinGraph
