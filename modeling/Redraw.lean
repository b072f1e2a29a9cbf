import Redraw.Canvas.Pixels
import Redraw.Config.Json
import Redraw.Renderer
import Redraw.Proofs.Clip.Crossing
import Redraw.Proofs.Occlusion
import Redraw.Proofs.Clip.Containment
import Redraw.Proofs.Clip.Growth
import Redraw.Proofs.Triangle.Coverage
import Redraw.Proofs.Triangle.SharedEdge
import Redraw.Proofs.Triangle.Extent
import Redraw.Proofs.Triangle.Slice
import Redraw.Proofs.Triangle.Accuracy
import Redraw.Proofs.Drome.Viewport
import Redraw.Proofs.Drome.Walk
import Redraw.Proofs.Memory
import Redraw.Proofs.Exposure
import Redraw.Proofs.Picture
import Redraw.Proofs.Canvas.Blit
import Redraw.Proofs.Drome.Rasterize
import Redraw.Proofs.Drome.Verdicts
import Redraw.Proofs.Drome.Stream
import Redraw.Proofs.Drome.Footprint
import Redraw.Proofs.Drome.Noninterference
import Redraw.Proofs.Engine.Hooks
import Redraw.Proofs.Engine.Publishing
import Redraw.Proofs.Engine.BackFrame
import Redraw.Proofs.Engine.Selection
import Redraw.Proofs.Engine.ScreenCopy
import Redraw.Proofs.Renderer.Requests
import Redraw.Proofs.Renderer.Fresh
import Redraw.Proofs.Renderer.Armed
import Redraw.Proofs.Renderer.Foreign
import Redraw.Proofs.Renderer.Published
import Redraw.Proofs.Renderer.Rescaled
import Redraw.Proofs.Checked.Access
import Redraw.Proofs.Checked.Canvas
import Redraw.Proofs.Checked.Triangle
import Redraw.Proofs.Checked.Shapes
import Redraw.Proofs.Checked.Clip
import Redraw.Proofs.Checked.Commit
import Redraw.Proofs.Checked.Hooks
import Redraw.Proofs.Checked.Drome
import Redraw.Proofs.Checked.Requests
import Redraw.Proofs.Canvas.Upscale
import Redraw.Proofs.Triangle.Box
import Redraw.Proofs.Triangle.Rectangle
import Redraw.Proofs.Affine.Samples
import Redraw.Proofs.Affine.Weights
import Redraw.Proofs.Affine.Plane
import Redraw.Proofs.Affine.Identity
import Redraw.Proofs.Affine.Footprint
import Redraw.Proofs.Triangle.Order
import Redraw.Proofs.Clip.Around
import Redraw.Proofs.Trapezoid
import Redraw.Proofs.Drome.Unclipped
import Redraw.Proofs.Triangle.Translation
import Redraw.Proofs.Triangle.Wrapping
import Redraw.Proofs.Trapezoid.Texture
import Redraw.Proofs.Sprite.Fixed
import Redraw.Proofs.Sprite.Packed
import Redraw.Proofs.Sprite.Stretched
import Redraw.Proofs.Engine.Region
import Redraw.Proofs.Outline
import Redraw.Proofs.Canvas.Replication
import Redraw.Proofs.Config
import Redraw.Proofs.Clip.Accuracy
import Redraw.Proofs.Fan
import Redraw.Proofs.Bounded
import Redraw.Proofs.Memory.LastStored
import Redraw.Proofs.Title.Unambiguous
