namespace SchemaGraph

structure Layout where
  columns : Int := 3
  xSpacing : Int := 300
  ySpacing : Int := 400
  xOffset : Int := 50
  yOffset : Int := 50
  deriving DecidableEq, Repr

namespace Layout

structure Valid (layout : Layout) : Prop where
  one_le_columns : 1 ≤ layout.columns
  columns_le : layout.columns ≤ 50
  xSpacing_nonneg : 0 ≤ layout.xSpacing
  ySpacing_nonneg : 0 ≤ layout.ySpacing

structure Position where
  x : Int
  y : Int
  deriving DecidableEq, Repr

def position (layout : Layout) (index : Int) : Position where
  x := index.fmod layout.columns * layout.xSpacing + layout.xOffset
  y := index.fdiv layout.columns * layout.ySpacing + layout.yOffset

end Layout
end SchemaGraph
